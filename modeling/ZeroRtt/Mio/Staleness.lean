import ZeroRtt.Mio.Loop

namespace ZeroRtt.Mio.Staleness

open ZeroRtt.Lib.Panics ZeroRtt.Lib.Containers ZeroRtt.Lib.Runs ZeroRtt.Mio.Loop
open ZeroRtt.Api.Types ZeroRtt.Api.Quiche ZeroRtt.Poll.Schedule ZeroRtt.Poll.Conn
open ZeroRtt.Poll.Evolution ZeroRtt.Poll.Retries ZeroRtt.Poll.Unlock ZeroRtt.Poll.Locking
open ZeroRtt.Poll.RetryProtocol ZeroRtt.Poll.Sections ZeroRtt.Poll.Walks ZeroRtt.Poll.Chronicle
open ZeroRtt.Poll (Group Section State)

section Releasing

variable {s t : Ctx}

def applied (s : Ctx) (env : UnlockEnv) : Connection :=
  s.conn.wrapped.after (logCalls (recorded s env))

def asked (s : Ctx) (env : UnlockEnv) : Connection :=
  (applied s env).after [.streamWritableNext, .streamReadableNext]

/-- Dropping the guard makes nothing ready that is due before the deadline: no
recorded operation is reported, no stream is writable or readable, the connection
has not come up or closed, and the next packet has to wait as long, or for a peer. -/
structure Timely (s : Ctx) (sendDone : Bool) (env : UnlockEnv) (deadline : Option Instant) :
    Prop where
  retries : logEvents s.event (recorded s env) = []
  writable : ((applied s env).call .streamWritableNext).1 = none
  readable : (((applied s env).after [.streamWritableNext]).call .streamReadableNext).1 = none
  state : stateEvents s.event s.conn.established (asked s env) = []
  send : match delaySend (asked s env) env.now sendDone with
    | some d => ∃ t, deadline = some t ∧ t ≤ d
    | none => sendDone = true

theorem unlock_quiet {n : ℕ} {sendDone closed : Bool} {env : UnlockEnv}
    (hwritable : ((applied s env).call .streamWritableNext).1 = none)
    (hreadable : (((applied s env).after [.streamWritableNext]).call .streamReadableNext).1 = none)
    (h : s.unlock n sendDone env = .ok (closed, t)) :
    ∃ m b k calls, Evolves { s with conn := relock s.conn m b k } t calls
      (insertions (logEvents s.event (recorded s env)) ++
        sendObs s.event (asked s env) sendDone env.now ::
        insertions (stateEvents s.event s.conn.established (asked s env))) := by
  obtain ⟨m, b, k, u, hu, hretry, ht⟩ := unlock_parts h
  have hestablished := handleRetryEvents_established hu
  have hwrapped : u.conn.wrapped = applied s env := hretry.wrapped
  rw [← hwrapped] at hwritable hreadable
  rw [handleStreamStateChanged_quiet hwritable hreadable] at ht
  have hdrain := hretry.trans (evolves_afterCalls u [.streamWritableNext, .streamReadableNext])
  have hdrained : (afterCalls u [.streamWritableNext, .streamReadableNext]).conn.wrapped =
      asked s env := by
    rw [asked, ← hwrapped]
    rfl
  have hsend := evolves_handleSend (afterCalls u [.streamWritableNext, .streamReadableNext])
    sendDone env.now
  rw [hdrain.event, hdrained] at hsend
  have hscheduled := hdrain.trans hsend
  have hstate := (evolves_handleStateChanged
    ((afterCalls u [.streamWritableNext, .streamReadableNext]).handleSend sendDone env.now)).1
  rw [hscheduled.event, hsend.wrapped, hdrained, Connection.after_nil, handleSend_established,
    show (afterCalls u [.streamWritableNext, .streamReadableNext]).conn.established =
      s.conn.established from hestablished, ht] at hstate
  have hall := hscheduled.trans hstate
  refine ⟨m, b, k, logCalls (recorded s env) ++ [.streamWritableNext, .streamReadableNext], ?_⟩
  simp only [List.append_nil, List.append_assoc, List.cons_append, List.nil_append] at hall
  exact hall

theorem unlock_timely {n : ℕ} {sendDone closed : Bool} {env : UnlockEnv} {deadline : Option Instant}
    (htimely : Timely s sendDone env deadline) (h : s.unlock n sendDone env = .ok (closed, t)) :
    t.trace = s.trace ++ [sendObs s.event (asked s env) sendDone env.now] ∧
      t.readiness = applyObs s.readiness (sendObs s.event (asked s env) sendDone env.now) := by
  obtain ⟨m, b, k, calls, hevolves⟩ := unlock_quiet htimely.writable htimely.readable h
  rw [htimely.retries, htimely.state] at hevolves
  exact ⟨hevolves.trace, hevolves.readiness⟩

theorem unlock_ready {n : ℕ} {sendDone closed : Bool} {env : UnlockEnv}
    (h : s.unlock n sendDone env = .ok (closed, t)) :
    ∃ obs, t.trace = s.trace ++ obs ∧
      ∀ e, e.kind ≠ .send → .insert e none ∈ obs → e ∈ t.readiness.events := by
  obtain ⟨m, b, k, log, hspec⟩ := unlocked_of_ok h
  obtain ⟨obs, htrace, -, hready⟩ := unlocked_ready hspec
  exact ⟨obs, htrace, hready⟩

theorem unlock_streams {n : ℕ} {sendDone closed : Bool} {env : UnlockEnv}
    (h : s.unlock n sendDone env = .ok (closed, t))
    (hsilent : ∀ e, e.kind ≠ .send → .insert e none ∉ t.trace) :
    ((applied s env).call .streamWritableNext).1 = none ∧
      (((applied s env).after [.streamWritableNext]).call .streamReadableNext).1 = none := by
  obtain ⟨m, b, k, u, -, hretry, ht⟩ := unlock_parts h
  have hwrapped : u.conn.wrapped = applied s env := hretry.wrapped
  have hsend := evolves_handleSend u.handleStreamStateChanged sendDone env.now
  have hstate := (evolves_handleStateChanged
    (u.handleStreamStateChanged.handleSend sendDone env.now)).1
  rw [ht] at hstate
  have hlater : ∀ o ∈ u.handleStreamStateChanged.trace, o ∈ t.trace := by
    intro o ho
    rw [hstate.trace, hsend.trace]
    exact List.mem_append_left _ (List.mem_append_left _ ho)
  rw [← hwrapped]
  refine handleStreamStateChanged_silent ?_
  intro e hkind hmem
  exact hsilent e hkind (hlater _ hmem)

theorem timely_of_unlock {n : ℕ} {sendDone closed : Bool} {env : UnlockEnv}
    {deadline : Option Instant} (h : s.unlock n sendDone env = .ok (closed, t))
    (hstart : s.trace = []) (hevents : ∀ e ∈ insertedBy t.trace, e ∉ t.readiness.events)
    (hdelayed : ∀ e ∈ insertedBy t.trace, ∀ d, t.readiness.delayed.lookup e = some d →
      ∃ i, deadline = some i ∧ i ≤ d) : Timely s sendDone env deadline := by
  have hsilent : ∀ e, e.kind ≠ .send → .insert e none ∉ t.trace := by
    intro e hkind hmem
    obtain ⟨obs, htrace, hready⟩ := unlock_ready h
    rw [hstart, List.nil_append] at htrace
    exact hevents e (mem_insertedBy hmem) (hready e hkind (htrace ▸ hmem))
  obtain ⟨hwritable, hreadable⟩ := unlock_streams h hsilent
  obtain ⟨m, b, k, calls, hevolves⟩ := unlock_quiet hwritable hreadable h
  have htrace : t.trace = _ := hevolves.trace.trans (congrArg (· ++ _) hstart)
  have hreadiness : t.readiness = _ := hevolves.readiness
  have hretries : logEvents s.event (recorded s env) = [] := by
    refine List.eq_nil_iff_forall_not_mem.mpr fun e he ↦ ?_
    obtain ⟨hd, -, hreported⟩ := List.mem_flatMap.mp he
    refine hsilent e ?_ ?_
    · intro hkind
      exact retryKind_ne_send hd.kind (hkind ▸ retryEvents_kind hreported)
    · rw [htrace]
      simp [insertions, he]
  have hstate : stateEvents s.event s.conn.established (asked s env) = [] := by
    refine List.eq_nil_iff_forall_not_mem.mpr fun e he ↦ ?_
    refine hsilent e ?_ ?_
    · obtain ⟨kind, hkind, rfl⟩ := stateEvents_kind he
      rcases hkind with rfl | rfl | rfl <;> simp [Ctx.event]
    · rw [htrace]
      simp [insertions, he]
  refine ⟨hretries, hwritable, hreadable, hstate, ?_⟩
  rw [hretries, hstate] at htrace hreadiness
  split
  next d hd =>
    have hobs : sendObs s.event (asked s env) sendDone env.now =
        .insert (s.event .send false 0) (some d) := by simp [sendObs, hd]
    rw [hobs] at htrace hreadiness
    refine hdelayed (s.event .send false 0) ?_ d ?_
    · rw [htrace]
      exact mem_insertedBy (List.mem_cons_self ..)
    · rw [hreadiness]
      exact AList.lookup_insert _
  next hd =>
    cases sendDone with
    | true => rfl
    | false =>
      have hobs : sendObs s.event (asked s env) false env.now =
          .insert (s.event .send false 0) none := by simp [sendObs, hd]
      rw [hobs] at htrace hreadiness
      refine absurd ?_ (hevents (s.event .send false 0) ?_)
      · rw [hreadiness]
        exact Readiness.mem_events_insert_none.mpr (.inl rfl)
      · rw [htrace]
        exact mem_insertedBy (List.mem_cons_self ..)

end Releasing

section Freshness

variable {α : Type} {w : World} {g g' : Group} {theirs : List Event} {deadline : Option Instant}

/-- Whatever is ready, or due before the deadline, was inserted by another thread. -/
structure Covered (r : Readiness) (theirs : List Event) (deadline : Option Instant) : Prop where
  events : ∀ e ∈ r.events, e ∈ theirs
  delayed : ∀ e d, r.delayed.lookup e = some d → e ∈ theirs ∨ ∃ t, deadline = some t ∧ t ≤ d

theorem Covered.chronicled (h : Covered g.state.readiness theirs deadline)
    (hchronicled : Chronicled g g') :
    Covered g'.state.readiness (theirs ++ insertedBetween g g') deadline := by
  obtain ⟨news, hhistory, hreadiness⟩ := hchronicled
  rw [insertedBetween_of_append hhistory, hreadiness]
  refine ⟨?_, ?_⟩
  · intro e he
    by_cases hmem : e ∈ insertedBy (observations news)
    · exact List.mem_append_right _ hmem
    · exact List.mem_append_left _ (h.events e ((before_foldl hmem).1 he))
  · intro e d hd
    by_cases hmem : e ∈ insertedBy (observations news)
    · exact .inl (List.mem_append_right _ hmem)
    · exact (h.delayed e d ((before_foldl hmem).2 d hd)).imp_left (List.mem_append_left _)

theorem covered_poll {r r' : Readiness} {threshold : Duration} {env : PollEnv} {out : List Event}
    (h : r.poll [] threshold env = .ok (out, deadline, r')) : Covered r' [] deadline := by
  obtain ⟨more, -, -, hempty, -⟩ := Readiness.poll_spec (P := fun _ ↦ True) h fun _ _ _ ↦ trivial
  refine ⟨?_, fun e d hd ↦ .inr (Readiness.poll_deadline h hd)⟩
  intro e he
  rw [hempty] at he
  exact absurd he (HashSet.not_mem_empty e)

def Still (g g' : Group) : Prop :=
  g'.state.history = g.state.history ∧ g'.state.readiness = g.state.readiness

theorem carries_still :
    Carries (fun s t ↦ t.trace = s.trace ∧ t.readiness = s.readiness) Still where
  refl _ := ⟨rfl, rfl⟩
  trans h h' := ⟨h'.1.trans h.1, h'.2.trans h.2⟩
  unparked _ _ := ⟨rfl, rfl⟩
  put := by
    rintro g token c s - ⟨htrace, hreadiness⟩
    refine ⟨?_, hreadiness⟩
    show g.state.history ++ s.trace.map _ = g.state.history
    rw [show s.trace = [] from htrace]
    exact List.append_nil _

theorem Covered.still (h : Covered g.state.readiness theirs deadline) (hstill : Still g g') :
    Covered g'.state.readiness (theirs.filter fun e ↦ e ∉ insertedBetween g g') deadline := by
  obtain ⟨hhistory, hreadiness⟩ := hstill
  have happend : g'.state.history = g.state.history ++ [] := by rw [hhistory, List.append_nil]
  have hnone : insertedBetween g g' = [] := insertedBetween_of_append happend
  rw [hnone, hreadiness]
  simpa using h

theorem still_lock (token : Token) (kind : LocKind) (g : Group) :
    Still g (leftBy (Group.lock token kind g)) := by
  refine carries_still.operation ?_ token g
  intro s r t hrun
  obtain ⟨⟨r', c⟩, -, hrun⟩ := bind_ok hrun
  cases hrun
  exact ⟨rfl, rfl⟩

theorem still_derefMut (guard : Guard) (c : Call) (g : Group) :
    Still g (leftBy (Group.derefMut guard c g)) :=
  carries_still.derefMut (fun _ ↦ ⟨rfl, rfl⟩) guard g

theorem still_transmit (guard : Guard) (len : ℕ) (now : Instant) (g : Group) :
    Still g (leftBy (transmit guard len now g)) := by
  refine carries_still.bind (carries_still.deref guard) (fun conn g ↦ ?_) g
  split
  · exact carries_still.refl g
  · refine carries_still.bind (still_derefMut guard .onTimeout) (fun _ g ↦ ?_) g
    refine carries_still.bind (still_derefMut guard (.send len)) (fun answer g ↦ ?_) g
    split <;> exact carries_still.refl g

end Freshness

section Rounds

variable {α : Type} {w : World} {a : Action} {i : Iteration} {deadline : Option Instant}

def Internal (i : Iteration) : Prop :=
  i.events = [] ∧ ∀ e ∈ i.todo, e.kind = .send ∨ e.kind = .recv

/-- The round leads to `mio_poll_once` with this deadline, or is already in it. -/
def Awaits : Phase → Option Instant → Prop
  | .idle, _ => False
  | .handling i, d => Internal i ∧ d = i.nextReleaseTime
  | .locked i _, d => Internal i ∧ d = i.nextReleaseTime
  | .sent i _ _, d => Internal i ∧ d = i.nextReleaseTime
  | .polling deadline, d => d = deadline

/-- Each packet of a round that is not for the caller is followed by a timely unlock. -/
def Prompt (w : World) : Action → Prop
  | .unlock env =>
    match w.phase with
    | .sent i guard sendDone =>
      Internal i → ∀ c, w.base.group.state.conns.lookup guard.lock.token = some c →
        Timely (w.base.group.state.ctx c) sendDone env i.nextReleaseTime
    | _ => True
  | _ => True

def Sound (w : World) : Prop :=
  ∀ d, Awaits w.phase d → Covered w.base.group.state.readiness w.theirs d

theorem Covered.scheduled {r : Readiness} {theirs : List Event} {e : Event} {o : Obs}
    (h : Covered r theirs deadline)
    (ho : o = .remove e ∨ ∃ d t, o = .insert e (some d) ∧ deadline = some t ∧ t ≤ d) :
    Covered (applyObs r o) (theirs.filter fun f ↦ f ∉ insertedBy [o]) deadline := by
  have hbefore : ∀ f, f ∉ insertedBy [o] → f ∈ theirs →
      f ∈ theirs.filter fun f ↦ f ∉ insertedBy [o] := by
    intro f hf hmem
    exact List.mem_filter.mpr ⟨hmem, by simpa using hf⟩
  refine ⟨?_, ?_⟩
  · intro f hf
    have hnew : f ∉ insertedBy [o] := by
      rcases ho with rfl | ⟨d, t, rfl, -, -⟩
      · simp [insertedBy]
      · have hne := (Readiness.mem_events_insert_some.mp hf).1
        simpa [insertedBy] using hne
    exact hbefore f hnew (h.events f ((before_applyObs hnew).1 hf))
  · intro f d hd
    by_cases hnew : f ∈ insertedBy [o]
    · rcases ho with rfl | ⟨d', t, rfl, hdeadline, hle⟩
      · simp [insertedBy] at hnew
      · obtain rfl : f = e := by simpa [insertedBy] using hnew
        rw [show (applyObs r (.insert f (some d'))).delayed.lookup f = some d' from
          AList.lookup_insert _] at hd
        cases hd
        exact .inr ⟨t, hdeadline, hle⟩
    · exact (h.delayed f d ((before_applyObs hnew).2 d hd)).imp_left (hbefore f hnew)

theorem Timely.packet {s : Ctx} {sendDone : Bool} {env : UnlockEnv}
    (h : Timely s sendDone env deadline) :
    let o := sendObs s.event (asked s env) sendDone env.now
    o = .remove (s.event .send false 0) ∨
      ∃ d t, o = .insert (s.event .send false 0) (some d) ∧ deadline = some t ∧ t ≤ d := by
  have hsend := h.send
  cases hdelay : delaySend (asked s env) env.now sendDone with
  | none =>
    rw [hdelay] at hsend
    obtain rfl : sendDone = true := hsend
    exact .inl (by simp [sendObs, hdelay])
  | some d =>
    rw [hdelay] at hsend
    obtain ⟨t, hdeadline, hle⟩ := hsend
    exact .inr ⟨d, t, by simp [sendObs, hdelay], hdeadline, hle⟩

theorem Covered.unlockConn {g g' : Group} {theirs : List Event} {ctx : LockContext}
    {env : UnlockEnv} {closed : Bool} (h : Covered g.state.readiness theirs deadline)
    (htimely : ∀ c, g.state.conns.lookup ctx.token = some c →
      Timely (g.state.ctx c) ctx.sendDone env deadline)
    (hrun : Group.unlockConn ctx env g = .ok closed g') :
    Covered g'.state.readiness (theirs.filter fun e ↦ e ∉ insertedBetween g g') deadline := by
  obtain ⟨c, t, hc, hunlock, rfl⟩ := unlockConn_ok hrun
  obtain ⟨htrace, hreadiness⟩ := unlock_timely (htimely c hc) hunlock
  have hnews : t.trace = [_] := htrace
  rw [insertedBetween_of_append rfl, observations_map, hnews]
  show Covered t.readiness _ _
  rw [hreadiness]
  exact h.scheduled (htimely c hc).packet

theorem timely_of_covered {g g' : Group} {theirs : List Event} {ctx : LockContext}
    {env : UnlockEnv} {closed : Bool} (hrun : Group.unlockConn ctx env g = .ok closed g')
    (h : Covered g'.state.readiness (theirs.filter fun e ↦ e ∉ insertedBetween g g') deadline) :
    ∀ c, g.state.conns.lookup ctx.token = some c →
      Timely (g.state.ctx c) ctx.sendDone env deadline := by
  obtain ⟨c, t, hc, hunlock, rfl⟩ := unlockConn_ok hrun
  rw [insertedBetween_of_append rfl, observations_map] at h
  have hours : ∀ e ∈ insertedBy t.trace,
      e ∉ theirs.filter fun e ↦ e ∉ insertedBy t.trace := by
    intro e he hmem
    simpa [he] using (List.mem_filter.mp hmem).2
  intro c' hc'
  rw [hc] at hc'
  cases hc'
  refine timely_of_unlock hunlock rfl ?_ ?_
  · intro e he hready
    exact hours e he (h.events e hready)
  · intro e he d hd
    exact (h.delayed e d hd).resolve_left (hours e he)

theorem Internal.tail {next : Option Instant} {event : Event} {todo events : List Event}
    (h : Internal ⟨next, todo, events⟩) (hkind : event.kind = .send ∨ event.kind = .recv) :
    Internal ⟨next, event :: todo, events⟩ := by
  refine ⟨h.1, ?_⟩
  intro e he
  rcases List.mem_cons.mp he with rfl | he
  · exact hkind
  · exact h.2 e he

theorem sound_idle (h : w.phase = .idle) : Sound w := by
  intro d hd
  rw [h] at hd
  exact hd.elim

theorem sound_run {x : Section α} {k : World → α → World}
    (h : ∀ a group, x w.base.group = .ok a group →
      Sound (k { w with
        base.group := group
        theirs := w.theirs.filter fun e ↦ e ∉ insertedBetween w.base.group group } a)) :
    Sound (w.run x k) := by
  unfold World.run
  split
  next hrun => exact h _ _ hrun
  next => exact sound_idle rfl

theorem sound_still {x : Section α} {k : World → α → World} (hs : Sound w)
    (hstill : ∀ g, Still g (leftBy (x g)))
    (hk : ∀ w' a, (k w' a).base.group = w'.base.group ∧ (k w' a).theirs = w'.theirs ∧
      ∀ d, Awaits (k w' a).phase d → Awaits w.phase d) : Sound (w.run x k) := by
  refine sound_run fun a group hrun d hd ↦ ?_
  have hleft := hstill w.base.group
  rw [hrun] at hleft
  obtain ⟨hgroup, htheirs, hawaits⟩ := hk { w with
    base.group := group
    theirs := w.theirs.filter fun e ↦ e ∉ insertedBetween w.base.group group } a
  rw [hgroup, htheirs]
  exact (hs d (hawaits d hd)).still hleft

theorem sound_other {a : Poll.Interleaving.Action} (hs : Sound w) (ha : ∀ env, a ≠ .poll env) :
    Sound (w.other a) :=
  fun d hd ↦ (hs d hd).chronicled (chronicled_next ha)

theorem sound_pollGroup (env : PollEnv) (w : World) :
    Sound (w.run (Group.poll [] env) fun w (events, nextReleaseTime) ↦
      { w with phase := .handling ⟨nextReleaseTime, events, []⟩, theirs := [] }) := by
  refine sound_run ?_
  rintro ⟨events, nextReleaseTime⟩ group hrun d ⟨-, rfl⟩
  unfold Group.poll at hrun
  split at hrun
  · cases hrun
  next hpoll =>
    cases hrun
    exact covered_poll hpoll

theorem sound_handle {next : Option Instant} {event : Event} {todo events : List Event}
    (hs : Sound w) (hphase : w.phase = .handling ⟨next, event :: todo, events⟩) :
    Sound (w.handle ⟨next, todo, events⟩ event) := by
  have hback : ∀ d, event.kind = .send ∨ event.kind = .recv →
      Awaits (.handling ⟨next, todo, events⟩) d → Awaits w.phase d := by
    rintro d hkind ⟨hinternal, hd⟩
    rw [hphase]
    exact ⟨hinternal.tail hkind, hd⟩
  unfold World.handle
  split
  next hkind =>
    refine sound_still hs (still_lock _ _) fun w' r ↦ ?_
    cases r with
    | ok guard => exact ⟨rfl, rfl, fun d hd ↦ hback d (.inl hkind) hd⟩
    | error err => exact ⟨rfl, rfl, fun d hd ↦ hback d (.inl hkind) hd⟩
  next hkind => exact fun d hd ↦ hs d (hback d (.inr hkind) hd)
  next =>
    rintro d ⟨⟨hempty, -⟩, -⟩
    simp at hempty

theorem sound_transmit {guard : Guard} (hs : Sound w) (hphase : w.phase = .locked i guard)
    (len : ℕ) (now : Instant) :
    Sound (w.run (transmit guard len now) fun w (sendDone, _) ↦
      { w with phase := .sent i guard sendDone }) := by
  refine sound_still hs (still_transmit guard len now) fun w' sent ↦ ⟨rfl, rfl, ?_⟩
  intro d hd
  rw [hphase]
  exact hd

theorem sound_unlock {guard : Guard} {sendDone : Bool} {env : UnlockEnv} (hs : Sound w)
    (hphase : w.phase = .sent i guard sendDone)
    (htimely : Internal i → ∀ c, w.base.group.state.conns.lookup guard.lock.token = some c →
      Timely (w.base.group.state.ctx c) sendDone env i.nextReleaseTime) :
    Sound (w.unlock i guard sendDone env) := by
  apply sound_run
  rintro closed group hrun d ⟨hinternal, rfl⟩
  have hcovered : Covered w.base.group.state.readiness w.theirs i.nextReleaseTime :=
    hs _ (by rw [hphase]; exact ⟨hinternal, rfl⟩)
  have hafter := hcovered.unlockConn (htimely hinternal) hrun
  cases closed with
  | false => exact hafter
  | true => exact hafter

theorem sound_finish {next : Option Instant} {events : List Event} (hs : Sound w)
    (hphase : w.phase = .handling ⟨next, [], events⟩) : Sound (w.finish ⟨next, [], events⟩) := by
  unfold World.finish
  split
  · exact sound_idle rfl
  next hempty =>
    rintro d rfl
    apply hs _
    rw [hphase]
    exact ⟨⟨by simpa using hempty, by simp⟩, rfl⟩

theorem sound_next (hs : Sound w) (hlegal : Legal w a) (hprompt : Prompt w a) :
    Sound (w.next a) := by
  cases a with
  | other a => exact sound_other hs hlegal.1
  | pollGroup env =>
    unfold World.next
    dsimp only
    split
    · exact sound_pollGroup env w
    · exact hs
  | handle =>
    unfold World.next
    dsimp only
    split
    next hphase => exact sound_handle hs hphase
    next => exact hs
  | transmit len now =>
    unfold World.next
    dsimp only
    split
    next hphase => exact sound_transmit hs hphase len now
    next => exact hs
  | unlock env =>
    unfold World.next
    dsimp only
    split
    next hphase =>
      simp only [Prompt, hphase] at hprompt
      exact sound_unlock hs hphase hprompt
    next => exact hs
  | finish =>
    unfold World.next
    dsimp only
    split
    next hphase => exact sound_finish hs hphase
    next => exact hs
  | fail =>
    unfold World.next
    dsimp only
    split
    · exact sound_idle rfl
    · exact hs
  | wake =>
    unfold World.next
    dsimp only
    split
    · exact sound_idle rfl
    · exact hs

/-- The guard that is dropped, if one is, is dropped without a panic. -/
def Returns (w : World) : Action → Prop
  | .unlock env =>
    match w.phase with
    | .sent _ guard sendDone => ∃ closed group,
      Group.unlockConn { guard.lock with sendDone } env w.base.group = .ok closed group
    | _ => True
  | _ => True

theorem prompt_of_sound (hreturns : Returns w a) (h : Sound (w.next a)) : Prompt w a := by
  cases a with
  | unlock env =>
    cases hphase : w.phase with
    | sent i guard sendDone =>
      simp only [Returns, hphase] at hreturns
      obtain ⟨closed, group, hrun⟩ := hreturns
      simp only [World.next, hphase, World.unlock, World.run, hrun] at h
      simp only [Prompt, hphase]
      intro hinternal
      have hcovered := h i.nextReleaseTime ⟨hinternal, rfl⟩
      cases closed with
      | false => exact timely_of_covered hrun hcovered
      | true => exact timely_of_covered hrun hcovered
    | _ => simp only [Prompt, hphase]
  | _ => trivial

/-- If every guard of `on_quic_send` is dropped in time the loop never sleeps over
an event of its own: at the call of `mio_poll_once` what is ready, or due before the
deadline, was inserted by another thread. The guard that is not dropped in time is
the one after which a round that leads there has such an event. -/
theorem mioPollOnce_covered
    (hrun : Run step (fun w a ↦ Legal w a ∧ Prompt w a) World.initial w) :
    (∀ deadline, w.phase = .polling deadline →
      (∀ e ∈ w.base.group.state.readiness.events, e ∈ w.theirs) ∧
      ∀ e d, w.base.group.state.readiness.delayed.lookup e = some d →
        e ∈ w.theirs ∨ ∃ t, deadline = some t ∧ t ≤ d) ∧
      ∀ a, Legal w a → Returns w a → (Sound (w.next a) ↔ Prompt w a) := by
  have hsound : Sound w := by
    apply hrun.invariant (sound_idle rfl)
    rintro w w' a hs ⟨hlegal, hprompt⟩ hstep
    cases hstep
    exact sound_next hs hlegal hprompt
  refine ⟨?_, ?_⟩
  · intro deadline hphase
    have hcovered := hsound deadline (by rw [hphase]; rfl)
    exact ⟨hcovered.events, hcovered.delayed⟩
  · intro a hlegal hreturns
    exact ⟨prompt_of_sound hreturns, sound_next hsound hlegal⟩

def silent (scid : UInt8) : Connection := Script.connection ⟨false, [scid], [], [], none⟩

theorem mioPollOnce_covered_example :
    ∃ w, Run step (fun w a ↦ Legal w a ∧ Prompt w a) World.initial w ∧ w.phase = .polling none ∧
      ⟨⟨1⟩, .send, false, false, 0⟩ ∈ w.base.group.state.readiness.events ∧
      ∀ e ∈ w.base.group.state.readiness.events, e ∈ w.theirs := by
  have hconnect : Run step (fun w a ↦ Legal w a ∧ Prompt w a) World.initial _ :=
    .one (i := .other (.connect (silent 1) .still)) ⟨⟨by simp, trivial⟩, trivial⟩ rfl
  have hpoll := hconnect.tail (i := .pollGroup ⟨0, HashSet.listed, Peek.first⟩)
    ⟨by trivial, by trivial⟩ rfl
  have hhandle := hpoll.tail (i := .handle) ⟨by trivial, by trivial⟩ rfl
  have htransmit := hhandle.tail (i := .transmit 1200 0) ⟨by trivial, by trivial⟩ rfl
  have hunlock := htransmit.tail (i := .unlock .still) ⟨by trivial, by
    intro _ c hc
    cases hc
    exact ⟨rfl, rfl, rfl, rfl, rfl⟩⟩ rfl
  have hfinish := hunlock.tail (i := .finish) ⟨by trivial, by trivial⟩ rfl
  have hother := hfinish.tail (i := .other (.connect (silent 2) .still))
    ⟨by exact ⟨by simp, trivial⟩, by trivial⟩ rfl
  exact ⟨_, hother, rfl, by decide, ((mioPollOnce_covered hother).1 none rfl).1⟩

def eager : Connection :=
  { silent 1 with
    answer := fun h c ↦
      match c with
      | .send len =>
        if .send len ∈ h then .error .done
        else .ok (1200, ⟨⟨.localhost, 49152⟩, ⟨.localhost, 443⟩, 0⟩)
      | c => (silent 1).answer h c }

/-- The packet is sent, its connection is ready to send again, and the loop sleeps
without a deadline. -/
theorem mioPollOnce_overdue :
    ∃ w, Run step Legal World.initial w ∧ w.phase = .polling none ∧ w.theirs = [] ∧
      ⟨⟨0⟩, .send, false, false, 0⟩ ∈ w.base.group.state.readiness.events := by
  have hconnect : Run step Legal World.initial _ :=
    .one (i := .other (.connect eager .still)) ⟨by simp, trivial⟩ rfl
  have hpoll := hconnect.tail (i := .pollGroup ⟨0, HashSet.listed, Peek.first⟩) (by trivial) rfl
  have hhandle := hpoll.tail (i := .handle) (by trivial) rfl
  have htransmit := hhandle.tail (i := .transmit 1200 0) (by trivial) rfl
  have hunlock := htransmit.tail (i := .unlock .still) (by trivial) rfl
  have hfinish := hunlock.tail (i := .finish) (by trivial) rfl
  exact ⟨_, hfinish, rfl, rfl, by decide⟩

end Rounds

end ZeroRtt.Mio.Staleness
