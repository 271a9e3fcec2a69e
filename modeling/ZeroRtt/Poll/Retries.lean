import ZeroRtt.Poll.Evolution

namespace ZeroRtt.Poll.Retries

open ZeroRtt.Lib.Panics ZeroRtt.Lib.Containers
open ZeroRtt.Api.Types ZeroRtt.Api.Quiche ZeroRtt.Poll.Schedule ZeroRtt.Poll.Conn ZeroRtt.Poll.Evolution

def readCalls (q : Connection) (id err : ℕ) : List Call :=
  if q.streamFinished id then [] else [.streamShutdown id .read err]

def readFails (q : Connection) (id err : ℕ) : Bool :=
  !q.streamFinished id &&
    !(Ctx.unlessDone (q.call (.streamShutdown id .read err)).1).toBool

/-- The calls by which `stream_close_prv` applies a shutdown to quiche. -/
def streamCloseCalls (q : Connection) (id err : ℕ) : List Call :=
  if isBidi id then readCalls q id err ++ if readFails q id err then [] else [.streamSend id [] true]
  else if isLocal id q.isServer then [.streamSend id [] true]
  else readCalls q id err

theorem sendFin_snd (s : Ctx) (id : ℕ) :
    (s.sendFin id).2 = afterCalls s [.streamSend id [] true] := rfl

theorem shutdownRead_snd (s : Ctx) (id err : ℕ) :
    (s.shutdownRead id err).2 = afterCalls s (readCalls s.conn.wrapped id err) := by
  unfold Ctx.shutdownRead readCalls
  cases s.conn.wrapped.streamFinished id
  · rfl
  · simp [afterCalls]

theorem shutdownRead_fst (s : Ctx) (id err : ℕ) :
    (s.shutdownRead id err).1.toBool = !readFails s.conn.wrapped id err := by
  unfold Ctx.shutdownRead readFails
  cases s.conn.wrapped.streamFinished id
  · simp [Ctx.call]
  · rfl

theorem streamClosePrv_snd (s : Ctx) (id err : ℕ) :
    (s.streamClosePrv id err).2 = afterCalls s (streamCloseCalls s.conn.wrapped id err) := by
  unfold Ctx.streamClosePrv streamCloseCalls
  cases isBidi id
  · cases isLocal id s.conn.wrapped.isServer
    · exact shutdownRead_snd s id err
    · exact sendFin_snd s id
  · have hfst := shutdownRead_fst s id err
    have hsnd := shutdownRead_snd s id err
    rcases hs : s.shutdownRead id err with ⟨err' | u, t⟩
    · rw [hs] at hfst hsnd
      have hf : readFails s.conn.wrapped id err = true := by simpa [Except.toBool] using hfst
      simpa [hf] using hsnd
    · rw [hs] at hfst hsnd
      have hf : readFails s.conn.wrapped id err = false := by simpa [Except.toBool] using hfst
      have ht : t = afterCalls s (readCalls s.conn.wrapped id err) := hsnd
      simp [hf, sendFin_snd, ht, afterCalls_afterCalls]

/-- The calls by which a recorded operation is taken up again. -/
def retryCalls (q : Connection) : LocKind → List Call
  | .close app err reason => [.close app err reason]
  | .streamSend id len => [.streamWritable id len]
  | .streamClose id err => streamCloseCalls q id err
  | _ => []

def retryEvents (event : EventKind → Bool → ℕ → Event) (q : Connection) : LocKind → List Event
  | .recv => [event .recv false 0]
  | .close app err reason =>
    match (q.call (.close app err reason)).1 with
    | .error err => if err ≠ .done then [event .closed true 0] else []
    | .ok _ => []
  | .streamOpen kind =>
    if q.peerStreamsLeft kind > 0 then [event (Ctx.streamOpenEvent kind) false 0] else []
  | .streamSend id len =>
    match (q.call (.streamWritable id len)).1 with
    | .ok writable => if writable then [event .streamSend false id] else []
    | .error _ => [event .streamSend true id]
  | .streamRecv id => [event .streamRecv false id]
  | .readLock => [event .readLock false 0]
  | _ => []

def retryKind : LocKind → Option EventKind
  | .recv => some .recv
  | .close .. => some .closed
  | .streamOpen kind => some (Ctx.streamOpenEvent kind)
  | .streamSend .. => some .streamSend
  | .streamRecv _ => some .streamRecv
  | .readLock => some .readLock
  | _ => none

theorem retryEvents_kind {s : Ctx} {q : Connection} {k : LocKind} {e : Event}
    (he : e ∈ retryEvents s.event q k) : retryKind k = some e.kind := by
  cases k with
  | close app err reason =>
    simp only [retryEvents] at he
    split at he
    · split at he
      · cases List.mem_singleton.mp he
        rfl
      · cases he
    · cases he
  | streamOpen kind =>
    simp only [retryEvents] at he
    split at he
    · cases List.mem_singleton.mp he
      rfl
    · cases he
  | streamSend id len =>
    simp only [retryEvents] at he
    split at he
    · split at he
      · cases List.mem_singleton.mp he
        rfl
      · cases he
    · cases List.mem_singleton.mp he
      rfl
  | recv | streamRecv id | readLock =>
    cases List.mem_singleton.mp he
    rfl
  | _ => cases he

theorem retryKind_ne_send (k : LocKind) : retryKind k ≠ some .send := by
  cases k with
  | streamOpen kind => cases kind <;> simp [retryKind, Ctx.streamOpenEvent]
  | _ => simp [retryKind]

/-- Whether a recorded operation has to wait for another unlock. -/
def waits (q : Connection) : LocKind → Bool
  | .streamOpen kind => q.peerStreamsLeft kind = 0
  | _ => false

theorem waits_streamOpen {q : Connection} {k : LocKind} (h : waits q k = true) :
    ∃ kind, k = .streamOpen kind ∧ q.peerStreamsLeft kind = 0 := by
  cases k with
  | streamOpen kind => exact ⟨kind, rfl, by simpa [waits] using h⟩
  | _ => cases h

def insertions (events : List Event) : List Obs := events.map fun e ↦ .insert e none

structure Retried (s s' : Ctx) (k : LocKind) : Prop where
  evolves : Evolves s s' (retryCalls s.conn.wrapped k)
    (insertions (retryEvents s.event s.conn.wrapped k))
  reties : ∀ k', k' ∈ s'.conn.reties ↔
    k' ∈ s.conn.reties ∨ k' = k ∧ waits s.conn.wrapped k = true

theorem retried_insert (s : Ctx) {k : LocKind} (kind : EventKind) (isError : Bool) (id : ℕ)
    (hk : kind ≠ .streamAccept) (hcalls : retryCalls s.conn.wrapped k = [])
    (hevents : retryEvents s.event s.conn.wrapped k = [s.event kind isError id])
    (hwaits : waits s.conn.wrapped k = false) :
    Retried s (s.insert (s.event kind isError id) none) k where
  evolves := by
    rw [hcalls, hevents]
    exact evolves_insert s none hk
  reties k' := by simp [hwaits, Ctx.insert]

theorem retried_call (s : Ctx) {k : LocKind} (c : Call) (hcalls : retryCalls s.conn.wrapped k = [c])
    (hevents : retryEvents s.event s.conn.wrapped k = [])
    (hwaits : waits s.conn.wrapped k = false) : Retried s (s.call c).2 k where
  evolves := by
    rw [hcalls, hevents]
    exact evolves_call s c
  reties k' := by simp [hwaits, Ctx.call]

theorem retried_call_insert (s : Ctx) {k : LocKind} (c : Call) (kind : EventKind) (isError : Bool)
    (id : ℕ) (hk : kind ≠ .streamAccept) (hcalls : retryCalls s.conn.wrapped k = [c])
    (hevents : retryEvents s.event s.conn.wrapped k = [s.event kind isError id])
    (hwaits : waits s.conn.wrapped k = false) :
    Retried s ((s.call c).2.insert (s.event kind isError id) none) k where
  evolves := by
    rw [hcalls, hevents]
    exact (evolves_call s c).trans (evolves_insert _ none hk)
  reties k' := by simp [hwaits, Ctx.insert, Ctx.call]

theorem handleRetryEvent_close (s : Ctx) (app : Bool) (err : ℕ) (reason : Bytes) :
    ∃ s', s.handleRetryEvent (.close app err reason) = .ok s' ∧
      Retried s s' (.close app err reason) := by
  cases ha : (s.conn.wrapped.call (.close app err reason)).1 with
  | ok u =>
    exact ⟨_, by simp [Ctx.handleRetryEvent, Ctx.call, ha],
      retried_call s _ rfl (by simp [retryEvents, ha]) rfl⟩
  | error e =>
    by_cases he : e = .done
    · exact ⟨_, by simp [Ctx.handleRetryEvent, Ctx.call, ha, he],
        retried_call s _ rfl (by simp [retryEvents, ha, he]) rfl⟩
    · refine ⟨_, ?_, retried_call_insert s _ .closed true 0 (by decide) rfl
        (by simp [retryEvents, ha, he]) rfl⟩
      simp only [Ctx.handleRetryEvent, Ctx.call, ha, he, ne_eq, not_false_eq_true, if_true]
      rfl

theorem handleRetryEvent_streamSend (s : Ctx) (id len : ℕ) :
    ∃ s', s.handleRetryEvent (.streamSend id len) = .ok s' ∧ Retried s s' (.streamSend id len) := by
  cases ha : (s.conn.wrapped.call (.streamWritable id len)).1 with
  | ok writable =>
    cases writable with
    | false =>
      exact ⟨_, by simp [Ctx.handleRetryEvent, Ctx.call, ha],
        retried_call s _ rfl (by simp [retryEvents, ha]) rfl⟩
    | true =>
      refine ⟨_, ?_, retried_call_insert s _ .streamSend false id (by decide) rfl
        (by simp [retryEvents, ha]) rfl⟩
      simp only [Ctx.handleRetryEvent, Ctx.call, ha, if_true]
      rfl
  | error e =>
    refine ⟨_, ?_, retried_call_insert s _ .streamSend true id (by decide) rfl
      (by simp [retryEvents, ha]) rfl⟩
    simp only [Ctx.handleRetryEvent, Ctx.call, ha]
    rfl

theorem handleRetryEvent_streamOpen (s : Ctx) (kind : StreamKind) :
    ∃ s', s.handleRetryEvent (.streamOpen kind) = .ok s' ∧ Retried s s' (.streamOpen kind) := by
  by_cases h : s.conn.wrapped.peerStreamsLeft kind > 0
  · refine ⟨_, by simp [Ctx.handleRetryEvent, h],
      retried_insert s (Ctx.streamOpenEvent kind) false 0 (by cases kind <;> decide) rfl
        (by simp [retryEvents, h]) (by simp [waits]; omega)⟩
  · have h0 : s.conn.wrapped.peerStreamsLeft kind = 0 := by omega
    refine ⟨s.retryLater (.streamOpen kind), by simp [Ctx.handleRetryEvent, h0], ?_, ?_⟩
    · simpa [retryCalls, retryEvents, h0, insertions] using evolves_retryLater s (.streamOpen kind)
    · intro k'
      simp [Ctx.retryLater, waits, h0, or_comm]

theorem handleRetryEvent_ok (s : Ctx) {k : LocKind} (hk : k ≠ .none) :
    ∃ s', s.handleRetryEvent k = .ok s' ∧ Retried s s' k := by
  cases k with
  | none => exact absurd rfl hk
  | send => exact ⟨s, rfl, Evolves.refl s, by simp [waits]⟩
  | recv => exact ⟨_, rfl, retried_insert s .recv false 0 (by decide) rfl rfl rfl⟩
  | close app err reason => exact handleRetryEvent_close s app err reason
  | streamOpen kind => exact handleRetryEvent_streamOpen s kind
  | streamSend id len => exact handleRetryEvent_streamSend s id len
  | streamRecv id => exact ⟨_, rfl, retried_insert s .streamRecv false id (by decide) rfl rfl rfl⟩
  | streamClose id err =>
    refine ⟨afterCalls s (streamCloseCalls s.conn.wrapped id err), ?_, evolves_afterCalls s _, ?_⟩
    · rw [← streamClosePrv_snd]
      rfl
    · simp [waits, afterCalls]
  | readLock => exact ⟨_, rfl, retried_insert s .readLock false 0 (by decide) rfl rfl rfl⟩

theorem handleRetryEvent_conn {s t : Ctx} {k : LocKind} (h : s.handleRetryEvent k = .ok t) :
    t.conn = { s.conn with wrapped := t.conn.wrapped, reties := t.conn.reties } := by
  cases k with
  | none => cases h
  | send | recv | streamRecv | readLock =>
    cases h
    rfl
  | close app err reason =>
    cases hanswer : (s.conn.wrapped.call (.close app err reason)).1 with
    | ok u =>
      simp only [Ctx.handleRetryEvent, Ctx.call, hanswer] at h
      cases h
      rfl
    | error e =>
      simp only [Ctx.handleRetryEvent, Ctx.call, hanswer] at h
      split at h
      · cases h
        rfl
      · cases h
        rfl
  | streamOpen kind =>
    simp only [Ctx.handleRetryEvent] at h
    split at h
    · cases h
      rfl
    · cases h
      rfl
  | streamSend id len =>
    cases hanswer : (s.conn.wrapped.call (.streamWritable id len)).1 with
    | ok writable =>
      simp only [Ctx.handleRetryEvent, Ctx.call, hanswer] at h
      split at h
      · cases h
        rfl
      · cases h
        rfl
    | error e =>
      simp only [Ctx.handleRetryEvent, Ctx.call, hanswer] at h
      cases h
      rfl
  | streamClose id err =>
    cases h
    rw [streamClosePrv_snd]
    rfl

/-- A recorded operation and the quiche connection at the moment it is taken
up again. -/
structure Handled where
  kind : LocKind
  conn : Connection

def retryLog : Connection → List LocKind → List Handled
  | _, [] => []
  | q, k :: ks => ⟨k, q⟩ :: retryLog (q.after (retryCalls q k)) ks

theorem retryLog_map_kind (q : Connection) (ks : List LocKind) :
    (retryLog q ks).map Handled.kind = ks := by
  induction ks generalizing q with
  | nil => rfl
  | cons k ks ih => simp only [retryLog, List.map_cons, ih]

def logCalls (log : List Handled) : List Call := log.flatMap fun h ↦ retryCalls h.conn h.kind

def logEvents (event : EventKind → Bool → ℕ → Event) (log : List Handled) : List Event :=
  log.flatMap fun h ↦ retryEvents event h.conn h.kind

theorem foldlM_conn {s t : Ctx} {ks : List LocKind} (h : ks.foldlM Ctx.handleRetryEvent s = .ok t) :
    t.conn = { s.conn with wrapped := t.conn.wrapped, reties := t.conn.reties } := by
  induction ks generalizing s with
  | nil =>
    cases h
    rfl
  | cons k ks ih =>
    obtain ⟨u, hu, h⟩ := bind_ok h
    rw [ih h, handleRetryEvent_conn hu]

theorem foldlM_handleRetryEvent (ks : List LocKind) (s : Ctx) (hks : ∀ k ∈ ks, k ≠ .none) :
    ∃ s', ks.foldlM Ctx.handleRetryEvent s = .ok s' ∧
      Evolves s s' (logCalls (retryLog s.conn.wrapped ks))
        (insertions (logEvents s.event (retryLog s.conn.wrapped ks))) ∧
      ∀ k, k ∈ s'.conn.reties ↔ k ∈ s.conn.reties ∨
        ∃ h ∈ retryLog s.conn.wrapped ks, h.kind = k ∧ waits h.conn k = true := by
  induction ks generalizing s with
  | nil => exact ⟨s, rfl, Evolves.refl s, by simp [retryLog]⟩
  | cons k ks ih =>
    obtain ⟨t, ht, hev, hret⟩ := handleRetryEvent_ok s (hks k (by simp))
    obtain ⟨u, hu, hev', hret'⟩ := ih t (fun k' hk' ↦ hks k' (by simp [hk']))
    rw [hev.wrapped] at hev' hret'
    refine ⟨u, by rw [List.foldlM_cons, ht, ok_bind, hu], ?_, ?_⟩
    · have h := hev.trans hev'
      rw [hev.event] at h
      simpa only [retryLog, logCalls, logEvents, insertions, List.flatMap_cons,
        List.map_append] using h
    · intro k'
      rw [hret', hret]
      simp only [retryLog, List.mem_cons, exists_eq_or_imp]
      constructor
      · rintro ((h | ⟨rfl, h⟩) | h)
        · exact .inl h
        · exact .inr (.inl ⟨rfl, h⟩)
        · exact .inr (.inr h)
      · rintro (h | ⟨rfl, h⟩ | h)
        · exact .inl (.inl h)
        · exact .inl (.inr ⟨rfl, h⟩)
        · exact .inr h

end ZeroRtt.Poll.Retries
