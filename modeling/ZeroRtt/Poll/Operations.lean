import ZeroRtt.Poll.Sections

namespace ZeroRtt.Poll.Operations

open ZeroRtt.Lib.Panics ZeroRtt.Lib.Containers ZeroRtt.Lib.Runs
open ZeroRtt.Api.Types ZeroRtt.Api.Quiche ZeroRtt.Poll.Schedule ZeroRtt.Poll.Conn
open ZeroRtt.Poll.Evolution ZeroRtt.Poll.Retries ZeroRtt.Poll.Unlock ZeroRtt.Poll.Locking
open ZeroRtt.Poll.LockProtocol ZeroRtt.Poll.Sections

variable {α β : Type} {g g' : Group} {token : Token} {c c' : QuicConn} {s s' : Ctx}

/-- A connection as it is between two operations of a single thread. -/
structure Idle (token : Token) (c : QuicConn) : Prop where
  token_eq : c.token = token
  held : Held c []
  waiting : ∀ k ∈ c.reties, ∃ kind, k = .streamOpen kind

theorem idle_new (token : Token) (q : Connection) : Idle token (.new token q) where
  token_eq := rfl
  held := held_new token q
  waiting k hk := by simp [QuicConn.new] at hk

def closedOf (token : Token) (e : Event) : Bool := e.kind = .closed && e.token = token

def closes (token : Token) : Obs → Bool
  | .insert e _ => closedOf token e
  | _ => false

/-- One operation on an idle connection, by which the connection is idle again:
the calls it makes, what it reports, and whether the connection is closed now. -/
structure Turn (r : Readiness) (token : Token) (c : QuicConn) (calls : List Call) (s : Ctx)
    (closed : Bool) : Prop where
  idle : Idle token s.conn
  wrapped : s.conn.wrapped = drainStreams (c.wrapped.after calls)
  closed_eq : closed = s.conn.wrapped.isClosed
  readiness : s.readiness = s.trace.foldl applyObs r
  reports : ∀ t, s.trace.countP (closes t) = if t = token ∧ closed = true then 1 else 0
  delays : ∀ e d, .insert e (some d) ∈ s.trace → e.kind = .send

section Turns

variable {sendDone closed : Bool} {env : UnlockEnv} {log : List Handled}

theorem log_waiting (h : Unlocked s sendDone env closed s' log)
    (hw : ∀ k ∈ s.conn.reties, ∃ kind, k = .streamOpen kind) :
    ∀ hd ∈ log, ∃ kind, hd.kind = .streamOpen kind := by
  intro hd hmem
  have hkind : hd.kind ∈ (env.order s.conn.reties).1 := by
    rw [h.log_eq] at hmem
    rw [← retryLog_map_kind s.conn.wrapped (env.order s.conn.reties).1]
    exact List.mem_map_of_mem (f := Handled.kind) hmem
  exact hw _ ((HashSet.mem_order env.order).mp hkind)

theorem logCalls_waiting (h : ∀ hd ∈ log, ∃ kind, hd.kind = .streamOpen kind) :
    logCalls log = [] := by
  apply List.flatMap_eq_nil_iff.mpr
  intro hd hmem
  obtain ⟨kind, hkind⟩ := h hd hmem
  rw [hkind]
  rfl

theorem logEvents_waiting (h : ∀ hd ∈ log, ∃ kind, hd.kind = .streamOpen kind)
    {event : EventKind → Bool → ℕ → Event} {e : Event} (he : e ∈ logEvents event log) :
    ∃ kind, e = event (Ctx.streamOpenEvent kind) false 0 := by
  obtain ⟨hd, hmem, he⟩ := List.mem_flatMap.mp he
  obtain ⟨kind, hkind⟩ := h hd hmem
  rw [hkind] at he
  simp only [retryEvents] at he
  split at he
  · exact ⟨kind, List.mem_singleton.mp he⟩
  · cases he

theorem countP_closes_eq_zero {obs : List Obs} {t : Token}
    (h : ∀ e d, .insert e d ∈ obs → e.kind ≠ .closed) : obs.countP (closes t) = 0 := by
  apply List.countP_eq_zero.mpr
  intro o ho hc
  cases o with
  | insert e d => exact h e d ho (by simpa using (Bool.and_eq_true_iff.mp hc).1)
  | readable id => cases hc
  | remove e => cases hc

theorem mem_insertions {events : List Event} {e : Event} {d : Option Instant}
    (h : .insert e d ∈ insertions events) : d = none ∧ e ∈ events := by
  obtain ⟨f, hf, heq⟩ := List.mem_map.mp h
  cases heq
  exact ⟨rfl, hf⟩

theorem mem_sendObs {event : EventKind → Bool → ℕ → Event} {q : Connection} {now : Instant}
    {e : Event} {d : Option Instant} (h : .insert e d = sendObs event q sendDone now) :
    e = event .send false 0 := by
  unfold sendObs at h
  split at h
  · cases h
  · cases h
    rfl

theorem countP_stateEvents (event : EventKind → Bool → ℕ → Event)
    (hevent : ∀ kind isError id, (event kind isError id).kind = kind ∧
      (event kind isError id).token = token) (established : Bool) (q : Connection) (t : Token) :
    (insertions (stateEvents event established q)).countP (closes t) =
      if t = token ∧ q.isClosed = true then 1 else 0 := by
  have hfirst : ∀ kind, kind ≠ .closed →
      (insertions [event kind false 0]).countP (closes t) = 0 := by
    intro kind hkind
    simp [insertions, closes, closedOf, (hevent kind false 0).1, hkind]
  have hest : (insertions (if !established && q.isEstablished then
      [event (if q.isServer then .accept else .connected) false 0] else [])).countP
      (closes t) = 0 := by
    split
    · apply hfirst _
      cases q.isServer <;> simp
    · rfl
  have happend : insertions (stateEvents event established q) =
      insertions (if !established && q.isEstablished then
        [event (if q.isServer then .accept else .connected) false 0] else []) ++
      insertions (if q.isClosed then [event .closed false 0] else []) := by
    simp only [stateEvents, insertions, List.map_append]
  rw [happend, List.countP_append, hest, Nat.zero_add]
  cases q.isClosed with
  | false => simp [insertions]
  | true =>
    by_cases ht : t = token
    · simp [insertions, closes, closedOf, (hevent .closed false 0).1, (hevent .closed false 0).2, ht]
    · simp [insertions, closes, closedOf, (hevent .closed false 0).1, (hevent .closed false 0).2, ht,
        Ne.symm ht]

theorem turn_of_unlocked {calls : List Call} (htoken : s.conn.token = token)
    (hwaiting : ∀ k ∈ s.conn.reties, ∃ kind, k = .streamOpen kind)
    (hwrapped : s.conn.wrapped = c.wrapped.after calls) (htrace : s.trace = [])
    (h : Unlocked s sendDone env closed s' log) (hheld : Held s'.conn []) :
    Turn s.readiness token c calls s' closed := by
  have hlog := log_waiting h hwaiting
  obtain ⟨nexts, streams, established, hev, -, hstreams⟩ := h.evolves
  have htrace' := hev.trace
  rw [htrace, List.nil_append] at htrace'
  have hkinds : ∀ kind isError id, (s.event kind isError id).kind = kind ∧
      (s.event kind isError id).token = token := fun _ _ _ ↦ ⟨rfl, htoken⟩
  have hretries : ∀ e d, .insert e d ∈ insertions (logEvents s.event log) →
      d = none ∧ e.kind ≠ .closed := by
    intro e d he
    obtain ⟨rfl, hlogged⟩ := mem_insertions he
    obtain ⟨kind, rfl⟩ := logEvents_waiting hlog hlogged
    exact ⟨rfl, by cases kind <;> simp [Ctx.event, Ctx.streamOpenEvent]⟩
  have hdrained : ∀ e d, .insert e d ∈ streams → d = none ∧ e.kind ≠ .closed := by
    intro e d he
    obtain ⟨hd, hkind⟩ := hstreams _ he
    refine ⟨hd, ?_⟩
    rcases hkind with hkind | hkind | hkind <;> simp [hkind]
  refine ⟨⟨hev.token.trans htoken, hheld, ?_⟩, ?_, h.closed_eq, ?_, ?_, ?_⟩
  · intro k hk
    obtain ⟨hd, -, -, hwait⟩ := (h.reties k).mp hk
    obtain ⟨kind, hkind, -⟩ := waits_streamOpen hwait
    exact ⟨kind, hkind⟩
  · rw [h.wrapped, logCalls_waiting hlog, Connection.after_nil, hwrapped]
  · rw [hev.readiness, htrace']
  · intro t
    have hsend : closes t (sendObs s.event s'.conn.wrapped sendDone env.now) = false := by
      unfold sendObs
      split <;> simp [closes, closedOf, Ctx.event]
    rw [htrace', List.countP_append, List.countP_append, List.countP_cons, hsend,
      countP_closes_eq_zero fun e d he ↦ (hretries e d he).2,
      countP_closes_eq_zero fun e d he ↦ (hdrained e d he).2,
      countP_stateEvents s.event hkinds, h.closed_eq]
    simp
  · intro e d he
    rw [htrace'] at he
    rcases List.mem_append.mp he with he | he
    · rcases List.mem_append.mp he with he | he
      · cases (hretries e _ he).1
      · cases (hdrained e _ he).1
    · rcases List.mem_cons.mp he with he | he
      · rw [mem_sendObs he]
        rfl
      · cases (mem_insertions he).1

theorem turn_of_work {r : Readiness} {kind : LocKind} {calls : List Call} (hidle : Idle token c)
    (hk : kind ≠ .none) (hev : Evolves ⟨grant c kind, r, []⟩ s calls [])
    (hwaiting : ∀ k ∈ s.conn.reties, ∃ kind, k = .streamOpen kind) (sendDone : Bool)
    (env : UnlockEnv) :
    ∃ closed s', s.unlock c.context.lockCount sendDone env = .ok (closed, s') ∧
      Turn r token c calls s' closed := by
  have hg : Grants c kind := .inl (hidle.held.locker_eq_none_iff.mpr rfl)
  have hretries : ∀ k ∈ s.conn.reties, k.needRetry = true := by
    intro k hk
    obtain ⟨kind, rfl⟩ := hwaiting k hk
    rfl
  have hheld : Held s.conn [guardOf c kind] := (hidle.held.grant hk hg).evolves hev hretries
  obtain ⟨n, b, k, closed, s', log, hrun, hspec, hheld', -⟩ :=
    unlock_held hheld (List.mem_cons_self ..) sendDone env
  rw [List.erase_cons_head] at hheld'
  have hreadiness : s.readiness = r := hev.readiness
  have hturn : Turn s.readiness token c calls s' closed :=
    turn_of_unlocked (s := { s with conn := relock s.conn n b k })
      (hev.token.trans hidle.token_eq) hwaiting hev.wrapped hev.trace hspec hheld'
  rw [← hreadiness]
  exact ⟨closed, s', hrun, hturn⟩

theorem close_turn (hidle : Idle token c) (r : Readiness) (app : Bool) (err : ℕ) (reason : Bytes)
    (env : UnlockEnv) :
    ∃ a s closed, Ctx.close ⟨c, r, []⟩ app err reason env = .ok (a, s) ∧
      Turn r token c [.close app err reason] s closed := by
  have hg : Grants c (.close app err reason) := .inl (hidle.held.locker_eq_none_iff.mpr rfl)
  obtain ⟨closed, s, hunlock, hturn⟩ := turn_of_work hidle (by simp)
    (evolves_call ⟨grant c (.close app err reason), r, []⟩ (.close app err reason)) hidle.waiting
    false env
  exact ⟨_, s, closed, close_grants (s := ⟨c, r, []⟩) hidle.held env hg hunlock, hturn⟩

theorem streamClose_turn (hidle : Idle token c) (r : Readiness) (id err : ℕ) (env : UnlockEnv) :
    ∃ a s closed, Ctx.streamClose ⟨c, r, []⟩ id err env = .ok (a, s) ∧
      Turn r token c (streamCloseCalls c.wrapped id err) s closed := by
  have hg : Grants c (.streamClose id err) := .inl (hidle.held.locker_eq_none_iff.mpr rfl)
  have hev := evolves_afterCalls ⟨grant c (.streamClose id err), r, []⟩
    (streamCloseCalls c.wrapped id err)
  have hclose : (Ctx.streamClosePrv ⟨grant c (.streamClose id err), r, []⟩ id err).2 =
      afterCalls ⟨grant c (.streamClose id err), r, []⟩ (streamCloseCalls c.wrapped id err) :=
    streamClosePrv_snd _ id err
  rw [← hclose] at hev
  have hreties : (Ctx.streamClosePrv ⟨grant c (.streamClose id err), r, []⟩ id err).2.conn.reties =
      c.reties := by rw [hclose]; rfl
  obtain ⟨closed, s, hunlock, hturn⟩ := turn_of_work hidle (by simp) hev
    (by rw [hreties]; exact hidle.waiting) false env
  exact ⟨_, s, closed, streamClose_grants (s := ⟨c, r, []⟩) hidle.held env hg hunlock, hturn⟩

theorem streamOpen_turn (hidle : Idle token c) (r : Readiness) (kind : StreamKind)
    (nonBlocking : Bool) (env : UnlockEnv) :
    ∃ a s closed, Ctx.streamOpen ⟨c, r, []⟩ kind nonBlocking env = .ok (a, s) ∧
      Turn r token c (openCalls c kind) s closed := by
  have hg : Grants c (.streamOpen kind) := .inl (hidle.held.locker_eq_none_iff.mpr rfl)
  obtain ⟨hev, hreties⟩ := evolves_streamOpenPrv ⟨grant c (.streamOpen kind), r, []⟩ kind
  have hcalls : openCalls (grant c (.streamOpen kind)) kind = openCalls c kind := by
    cases kind <;> rfl
  rcases hopen : Ctx.streamOpenPrv ⟨grant c (.streamOpen kind), r, []⟩ kind with ⟨a, t⟩
  rw [hopen] at hev hreties
  dsimp only at hev hreties
  rw [hcalls] at hev
  have hwaiting : ∀ k ∈ t.conn.reties, ∃ kind, k = .streamOpen kind := by
    rw [hreties]
    exact hidle.waiting
  have hlock := tryLockPrv_grants (c := c) hidle.held hg
  by_cases ha : a = .error .retry
  · subst ha
    have hlater := hev.trans (evolves_retryLater t (.streamOpen kind))
    rw [List.append_nil] at hlater
    have hwaiting' : ∀ k ∈ (t.retryLater (.streamOpen kind)).conn.reties,
        ∃ kind, k = .streamOpen kind := by
      intro k hk
      rcases HashSet.mem_insert.mp hk with rfl | hk
      · exact ⟨kind, rfl⟩
      · exact hwaiting k hk
    obtain ⟨closed, s, hunlock, hturn⟩ := turn_of_work hidle (by simp) hlater hwaiting' false env
    simp only [Ctx.streamOpen, hlock, ok_bind, hopen, hunlock, pure_eq_ok]
    exact ⟨_, s, closed, rfl, hturn⟩
  · obtain ⟨closed, s, hunlock, hturn⟩ := turn_of_work hidle (by simp) hev hwaiting false env
    simp only [Ctx.streamOpen, hlock, ok_bind, hopen, hunlock, pure_eq_ok]
    exact ⟨_, s, closed, rfl, hturn⟩

end Turns

section Working

structure Working (g g' : Group) (token : Token) (c : QuicConn) : Prop where
  here : g'.state.conns.lookup token = some c
  others : ∀ t, t ≠ token → g'.state.conns.lookup t = g.state.conns.lookup t
  readiness : g'.state.readiness = g.state.readiness
  history : g'.state.history = g.state.history

structure Ends (g g' : Group) (token : Token) (s : Ctx) (closed : Bool) : Prop where
  here : g'.state.conns.lookup token = if closed then none else some s.conn
  others : ∀ t, t ≠ token → g'.state.conns.lookup t = g.state.conns.lookup t
  readiness : g'.state.readiness = s.readiness
  history : g'.state.history = g.state.history ++ s.trace.map .observed

def worked (c : QuicConn) (kind : LocKind) (calls : List Call) : QuicConn :=
  { grant c kind with wrapped := c.wrapped.after calls }

theorem ends_put (g : Group) (token : Token) (s : Ctx) :
    Ends g { g with state := g.state.put token s } token s false where
  here := AList.lookup_insert _
  others _ ht := AList.lookup_insert_ne ht
  readiness := rfl
  history := rfl

variable {kind : LocKind} {calls : List Call}

theorem onConn_tryLock (hc : g.state.conns.lookup token = some c) (hidle : Idle token c)
    (kind : LocKind) :
    ∃ g', Group.onConn token (Group.tryLock kind) g = .ok (.ok (.ok (guardOf c kind))) g' ∧
      Working g g' token (worked c kind []) := by
  have hg : Grants c kind := .inl (hidle.held.locker_eq_none_iff.mpr rfl)
  have hworked : worked c kind [] = grant c kind := by
    simp only [worked, Connection.after_nil]
    rfl
  refine ⟨_, onConn_of_some hc (tryLock_grants (s := g.state.ctx c) hidle.held hg), ?_⟩
  rw [hworked]
  exact ⟨AList.lookup_insert _, fun t ht ↦ AList.lookup_insert_ne ht, rfl, List.append_nil _⟩

theorem lock_working (hc : g.state.conns.lookup token = some c) (hidle : Idle token c)
    (kind : LocKind) :
    ∃ g', Group.lock token kind g = .ok (.ok (guardOf c kind)) g' ∧
      Working g g' token (worked c kind []) := by
  obtain ⟨g', hrun, hwork⟩ := onConn_tryLock hc hidle kind
  refine ⟨g', ?_, hwork⟩
  simp only [Group.lock, bind, EStateM.bind, hrun]
  rfl

theorem lockRecv_working (hc : g.state.conns.lookup token = some c) (hidle : Idle token c)
    (unparker : Option Unparker) :
    ∃ g', Group.lockRecv token unparker g = .ok (.ok (guardOf c .recv)) g' ∧
      Working g g' token (worked c .recv []) := by
  obtain ⟨g', hrun, hwork⟩ := onConn_tryLock hc hidle .recv
  refine ⟨g', ?_, hwork⟩
  simp only [Group.lockRecv, hrun]

theorem deref_working (hidle : Idle token c) (h : Working g g' token (worked c kind calls)) :
    Group.deref (guardOf c kind) g' = .ok (c.wrapped.after calls) g' := by
  have hhere : g'.state.conns.lookup (guardOf c kind).lock.token = some (worked c kind calls) := by
    rw [← h.here, ← hidle.token_eq]
    rfl
  have hlabel : (worked c kind calls).wrapped.label = (guardOf c kind).label := rfl
  simp only [Group.deref, hhere, hlabel, if_true]
  rfl

theorem derefMut_working (hidle : Idle token c) (h : Working g g' token (worked c kind calls))
    (call : Call) :
    ∃ g'', Group.derefMut (guardOf c kind) call g' =
        .ok ((c.wrapped.after calls).call call).1 g'' ∧
      Working g g'' token (worked c kind (calls ++ [call])) := by
  have htoken : (guardOf c kind).lock.token = token := hidle.token_eq
  have hcall := onConn_of_some (f := fun s ↦ .ok ((), (s.call call).2)) h.here rfl
  have hworked : { worked c kind calls with
      wrapped := ((worked c kind calls).wrapped.call call).2 } = worked c kind (calls ++ [call]) := by
    simp only [worked, Connection.call_snd, Connection.after_after]
  refine ⟨⟨g'.state.put token ((g'.state.ctx (worked c kind calls)).call call).2, g'.scids⟩, ?_, ?_⟩
  · simp only [Group.derefMut, bind, EStateM.bind, deref_working hidle h, htoken, hcall]
    rfl
  · refine ⟨?_, ?_, h.readiness, ?_⟩
    · rw [← hworked]
      exact AList.lookup_insert _
    · intro t ht
      exact (AList.lookup_insert_ne ht).trans (h.others t ht)
    · exact (List.append_nil _).trans h.history

theorem leftBy_takeScid (token : Token) (q : Connection) (g : Group) :
    (leftBy (Group.takeScid token q g)).state = g.state := by
  simp only [Group.takeScid]
  split <;> rfl

/-- `deregister` takes the connection out, even if it fails after that. -/
theorem deregister_of_some (hc : g.state.conns.lookup token = some c) :
    (leftBy (Group.deregister token g)).state =
      { g.state with conns := g.state.conns.erase token } := by
  have htake := takeConn_of_some hc
  have hscid := leftBy_takeScid token c.wrapped { g with state.conns := g.state.conns.erase token }
  simp only [Group.deregister, bind, EStateM.bind, htake]
  cases hr : Group.takeScid token c.wrapped { g with state.conns := g.state.conns.erase token } <;>
    rwa [hr] at hscid

def unlockedGroup (g : Group) (token : Token) (s : Ctx) : Group :=
  { g with state := State.put { g.state with unparkers := g.state.unparkers.erase token } token s }

theorem unlockConn_turn (hidle : Idle token c) (hk : kind ≠ .none)
    (h : Working g g' token (worked c kind calls)) (sendDone : Bool) (env : UnlockEnv) :
    ∃ s closed, Turn g.state.readiness token c calls s closed ∧
      Group.unlockConn { (guardOf c kind).lock with sendDone } env g' =
        .ok closed (unlockedGroup g' token s) := by
  have htoken : c.context.token = token := hidle.token_eq
  let g₀ : Group := { g' with state.unparkers := g'.state.unparkers.erase token }
  have hctx : g₀.state.ctx (worked c kind calls) =
      afterCalls ⟨grant c kind, g.state.readiness, []⟩ calls := by
    rw [← h.readiness]
    rfl
  have hev := evolves_afterCalls ⟨grant c kind, g.state.readiness, []⟩ calls
  obtain ⟨closed, s, hunlock, hturn⟩ := turn_of_work hidle hk hev hidle.waiting sendDone env
  rw [← hctx] at hunlock
  have hconn := onConn_of_some (g := g₀) (f := fun s ↦ s.unlock c.context.lockCount sendDone env)
    h.here hunlock
  refine ⟨s, closed, hturn, ?_⟩
  simp only [Group.unlockConn, guardOf, htoken]
  rw [hconn]
  rfl

theorem unlock_ends (hidle : Idle token c) (hk : kind ≠ .none)
    (h : Working g g' token (worked c kind calls)) (sendDone : Bool) (env : UnlockEnv) :
    ∃ s closed, Turn g.state.readiness token c calls s closed ∧
      Ends g (leftBy (Group.unlock { (guardOf c kind).lock with sendDone } env g')) token s
        closed := by
  have htoken : c.context.token = token := hidle.token_eq
  obtain ⟨s, closed, hturn, hsection⟩ := unlockConn_turn hidle hk h sendDone env
  have hothers : ∀ t, t ≠ token →
      (unlockedGroup g' token s).state.conns.lookup t = g.state.conns.lookup t :=
    fun t ht ↦ (AList.lookup_insert_ne ht).trans (h.others t ht)
  have hhistory : (unlockedGroup g' token s).state.history =
      g.state.history ++ s.trace.map .observed := by
    rw [← h.history]
    rfl
  refine ⟨s, closed, hturn, ?_⟩
  simp only [Group.unlock, bind, EStateM.bind, hsection]
  cases closed with
  | false => exact ⟨AList.lookup_insert _, hothers, rfl, hhistory⟩
  | true =>
    have hhere : (unlockedGroup g' token s).state.conns.lookup token = some s.conn :=
      AList.lookup_insert _
    have hstate := deregister_of_some hhere
    simp only [if_true, guardOf, htoken]
    have hleft := leftBy_bind (x := Group.deregister token) (f := fun _ ↦ (pure () : Section Unit))
      (fun _ _ ↦ rfl) (unlockedGroup g' token s)
    refine hleft.symm ▸ ?_
    refine ⟨?_, ?_, ?_, ?_⟩
    · rw [hstate]
      exact AList.lookup_erase _ _
    · intro t ht
      rw [hstate]
      exact (AList.lookup_erase_ne ht).trans (hothers t ht)
    · rw [hstate]
      rfl
    · rw [hstate]
      exact hhistory

end Working

/-- The operations of a group, with what they read from outside. -/
inductive Op
  | register (conn : Connection) (env : UnlockEnv)
  | deregister (token : Token)
  | close (token : Token) (app : Bool) (err : ℕ) (reason : Bytes) (env : UnlockEnv)
  | streamOpen (token : Token) (kind : StreamKind) (nonBlocking : Bool) (env : UnlockEnv)
  | streamShutdown (token : Token) (streamId err : ℕ) (env : UnlockEnv)
  | streamSend (token : Token) (streamId : ℕ) (buf : Bytes) (fin : Bool) (env : UnlockEnv)
  | streamRecv (token : Token) (streamId len : ℕ) (env : UnlockEnv)
  | send (token : Token) (len : ℕ) (now : Instant) (env : UnlockEnv)
  | recv (fromSlice : Group.FromSlice) (buf : Bytes) (info : RecvInfo) (env : UnlockEnv)
  | poll (env : PollEnv)

/-- The group after an operation, which may have failed. -/
def perform (g : Group) : Op → Group
  | .register conn env => leftBy (Group.register conn env g)
  | .deregister token => leftBy (Group.deregister token g)
  | .close token app err reason env => leftBy (Group.close token app err reason env g)
  | .streamOpen token kind nonBlocking env =>
    leftBy (Group.streamOpen token kind nonBlocking env g)
  | .streamShutdown token streamId err env => leftBy (Group.streamShutdown token streamId err env g)
  | .streamSend token streamId buf fin env => leftBy (Group.streamSend token streamId buf fin env g)
  | .streamRecv token streamId len env => leftBy (Group.streamRecv token streamId len env g)
  | .send token len now env => leftBy (Group.send token len now env g)
  | .recv fromSlice buf info env => leftBy (Group.recv fromSlice buf info env g)
  | .poll env => leftBy (Group.poll [] env g)

/-- Everything an operation can do to the connections, to the readiness events
and to the history. -/
inductive Effect (g g' : Group) : Prop
  | none : (∀ t, g'.state.conns.lookup t = g.state.conns.lookup t) →
      g'.state.readiness = g.state.readiness → g'.state.history = g.state.history → Effect g g'
  | turn (token : Token) (c : QuicConn) (calls : List Call) (s : Ctx) (closed : Bool) :
      g.state.conns.lookup token = some c → Turn g.state.readiness token c calls s closed →
      Ends g g' token s closed → Effect g g'
  | arrive (token : Token) (q : Connection) (s : Ctx) : g.state.conns.lookup token = none →
      Turn g.state.readiness token (.new token q) [] s false →
      g'.state.conns.lookup token = some s.conn →
      (∀ t, t ≠ token → g'.state.conns.lookup t = g.state.conns.lookup t) →
      g'.state.readiness = s.readiness →
      g'.state.history = g.state.history ++ .registered token :: s.trace.map .observed →
      Effect g g'
  | leave (token : Token) : g'.state.conns.lookup token = Option.none →
      (∀ t, t ≠ token → g'.state.conns.lookup t = g.state.conns.lookup t) →
      g'.state.readiness = g.state.readiness → g'.state.history = g.state.history → Effect g g'
  | poll (env : PollEnv) (out : List Event) (deadline : Option Instant) :
      (∀ t, g'.state.conns.lookup t = g.state.conns.lookup t) →
      g.state.readiness.poll [] defaultReleaseTimerThreshold env =
        .ok (out, deadline, g'.state.readiness) →
      g'.state.history = g.state.history ++ out.map .delivered → Effect g g'

theorem Effect.refl (g : Group) : Effect g g := .none (fun _ ↦ rfl) rfl rfl

def Idles (g : Group) : Prop := ∀ token c, g.state.conns.lookup token = some c → Idle token c

section Effects

theorem effect_unlock {kind : LocKind} {calls : List Call}
    (hc : g.state.conns.lookup token = some c) (hidle : Idle token c) (hk : kind ≠ .none)
    (h : Working g g' token (worked c kind calls)) (sendDone : Bool) (env : UnlockEnv)
    {f : Unit → Section β} (hf : ∀ u g, leftBy (f u g) = g) :
    Effect g (leftBy ((Group.unlock { (guardOf c kind).lock with sendDone } env >>= f) g')) := by
  obtain ⟨s, closed, hturn, hends⟩ := unlock_ends hidle hk h sendDone env
  rw [leftBy_bind hf]
  exact .turn token c calls s closed hc hturn hends

theorem effect_streamSend (h : Idles g) (token : Token) (streamId : ℕ) (buf : Bytes) (fin : Bool)
    (env : UnlockEnv) : Effect g (leftBy (Group.streamSend token streamId buf fin env g)) := by
  unfold Group.streamSend
  cases hc : g.state.conns.lookup token with
  | none =>
    rw [bind_of_ok (lock_of_none hc _)]
    exact .refl g
  | some c =>
    have hidle := h token c hc
    obtain ⟨g₁, hlock, hwork⟩ := lock_working hc hidle (.streamSend streamId buf.length)
    obtain ⟨g₂, hcall, hwork⟩ := derefMut_working hidle hwork (.streamSend streamId buf fin)
    rw [bind_of_ok hlock]
    dsimp only
    rw [bind_of_ok hcall]
    apply effect_unlock hc hidle (by simp) hwork false env
    intro u g
    rcases ((c.wrapped.after []).call (.streamSend streamId buf fin)).1 with err | size
    · cases err <;> rfl
    · rfl

theorem effect_streamRecv (h : Idles g) (token : Token) (streamId len : ℕ) (env : UnlockEnv) :
    Effect g (leftBy (Group.streamRecv token streamId len env g)) := by
  unfold Group.streamRecv
  cases hc : g.state.conns.lookup token with
  | none =>
    rw [bind_of_ok (lock_of_none hc _)]
    exact .refl g
  | some c =>
    have hidle := h token c hc
    obtain ⟨g₁, hlock, hwork⟩ := lock_working hc hidle (.streamRecv streamId)
    obtain ⟨g₂, hcall, hwork⟩ := derefMut_working hidle hwork (.streamRecv streamId len)
    rw [bind_of_ok hlock]
    dsimp only
    rw [bind_of_ok hcall, bind_of_ok (deref_working hidle hwork)]
    apply effect_unlock hc hidle (by simp) hwork false env
    intro u g
    rcases ((c.wrapped.after []).call (.streamRecv streamId len)).1 with err | r
    · cases err <;> rfl
    · rfl

theorem effect_send (h : Idles g) (token : Token) (len : ℕ) (now : Instant) (env : UnlockEnv) :
    Effect g (leftBy (Group.send token len now env g)) := by
  unfold Group.send
  cases hc : g.state.conns.lookup token with
  | none =>
    rw [bind_of_ok (lock_of_none hc _)]
    exact .refl g
  | some c =>
    have hidle := h token c hc
    obtain ⟨g₁, hlock, hwork⟩ := lock_working hc hidle .recv
    rw [bind_of_ok hlock]
    dsimp only
    rw [bind_of_ok (deref_working hidle hwork)]
    split
    · exact effect_unlock hc hidle (by simp) hwork false env fun _ _ ↦ rfl
    · obtain ⟨g₂, htimeout, hwork⟩ := derefMut_working hidle hwork .onTimeout
      obtain ⟨g₃, hsend, hwork⟩ := derefMut_working hidle hwork (.send len)
      rw [bind_of_ok htimeout, bind_of_ok hsend]
      generalize ((c.wrapped.after ([] ++ [.onTimeout])).call (.send len)).1 = r
      rcases r with err | r
      · cases err with
        | done =>
          apply effect_unlock hc hidle (by simp) hwork true env
          exact fun _ _ ↦ rfl
        | other code =>
          apply effect_unlock hc hidle (by simp) hwork false env
          exact fun _ _ ↦ rfl
      · apply effect_unlock hc hidle (by simp) hwork false env
        exact fun _ _ ↦ rfl

theorem effect_recv (h : Idles g) (fromSlice : Group.FromSlice) (buf : Bytes) (info : RecvInfo)
    (env : UnlockEnv) : Effect g (leftBy (Group.recv fromSlice buf info env g)) := by
  unfold Group.recv
  cases fromSlice buf with
  | error err => exact .refl g
  | ok header =>
    dsimp only
    rw [leftBy_bind fun _ _ ↦ rfl]
    unfold Group.recvWithConnectionId
    cases hscid : g.scids.lookup header.dcid with
    | none =>
      rw [bind_of_ok (lookupScid_of_none hscid)]
      exact .refl g
    | some token =>
      rw [bind_of_ok (lookupScid_of_some hscid)]
      dsimp only
      cases hc : g.state.conns.lookup token with
      | none =>
        rw [bind_of_ok (lockRecv_of_none hc none)]
        exact .refl g
      | some c =>
        have hidle := h token c hc
        obtain ⟨g₁, hlock, hwork⟩ := lockRecv_working hc hidle none
        obtain ⟨g₂, hcall, hwork⟩ := derefMut_working hidle hwork (.recv buf info)
        rw [bind_of_ok hlock]
        dsimp only
        rw [bind_of_ok hcall]
        apply effect_unlock hc hidle (by simp) hwork false env
        intro u g
        rcases ((c.wrapped.after []).call (.recv buf info)).1 with err | size <;> rfl

theorem Turn.closed_eq_isClosed {r : Readiness} {calls : List Call} {closed : Bool}
    (h : Turn r token c calls s closed) :
    closed = (drainStreams (c.wrapped.after calls)).isClosed := by
  rw [h.closed_eq, h.wrapped]

theorem effect_onConn {f : Ctx → Rust (Except Error α × Ctx)} {calls : QuicConn → List Call}
    (hf : ∀ c, Idle token c →
      ∃ a s closed, f (g.state.ctx c) = .ok (a, s) ∧
        Turn g.state.readiness token c (calls c) s closed)
    (hopen : ∀ c, g.state.conns.lookup token = some c →
      (drainStreams (c.wrapped.after (calls c))).isClosed = false) (h : Idles g) :
    Effect g (leftBy ((do return (← Group.onConn token f).bind id : Section (Except Error α)) g)) := by
  rw [leftBy_bind fun _ _ ↦ rfl]
  cases hc : g.state.conns.lookup token with
  | none =>
    rw [onConn_of_none hc]
    exact .refl g
  | some c =>
    obtain ⟨a, s, closed, hrun, hturn⟩ := hf c (h token c hc)
    obtain rfl : closed = false := hturn.closed_eq_isClosed.trans (hopen c hc)
    rw [onConn_of_some hc hrun]
    exact .turn token c (calls c) s false hc hturn (ends_put g token s)

/-- The operations that take no notice of what their unlock returns leave no
connection closed. -/
def LeavesOpen (g : Group) : Op → Prop
  | .register conn _ =>
    g.scids.lookup conn.sourceId = none → (drainStreams conn).isClosed = false
  | .close token app err reason _ => ∀ c, g.state.conns.lookup token = some c →
    (drainStreams (c.wrapped.after [.close app err reason])).isClosed = false
  | .streamOpen token kind _ _ => ∀ c, g.state.conns.lookup token = some c →
    (drainStreams (c.wrapped.after (openCalls c kind))).isClosed = false
  | .streamShutdown token streamId err _ => ∀ c, g.state.conns.lookup token = some c →
    (drainStreams (c.wrapped.after (streamCloseCalls c.wrapped streamId err))).isClosed = false
  | _ => True

theorem effect_register (conn : Connection) (env : UnlockEnv)
    (hopen : LeavesOpen g (.register conn env)) :
    Effect g (leftBy (Group.register conn env g)) := by
  have hcases := register_cases g conn env
  generalize Group.register conn env g = r at hcases ⊢
  cases hcases with
  | hangs => exact .refl g
  | taken token tokenNext hfree hscid => exact .none (fun _ ↦ rfl) rfl rfl
  | @fresh token tokenNext n b k closed s log hfree hscid hspec hheld hcont =>
    have hturn : Turn g.state.readiness token (.new token conn) [] s closed :=
      turn_of_unlocked (s := g.state.ctx (relock (.new token conn) n b k)) rfl
        (idle_new token conn).waiting (Connection.after_nil _).symm rfl hspec hheld
    obtain rfl : closed = false := by
      rw [hturn.closed_eq_isClosed, Connection.after_nil]
      exact hopen hscid
    refine .arrive token conn s hfree hturn (AList.lookup_insert _) ?_ rfl ?_
    · exact fun t ht ↦ AList.lookup_insert_ne ht
    · simp only [leftBy, State.put, List.append_assoc, List.singleton_append]

theorem effect_deregister (token : Token) : Effect g (leftBy (Group.deregister token g)) := by
  cases hc : g.state.conns.lookup token with
  | none =>
    rw [deregister_of_none hc]
    exact .refl g
  | some c =>
    have hstate := deregister_of_some hc
    refine .leave token ?_ ?_ ?_ ?_
    · rw [hstate]
      exact AList.lookup_erase _ _
    · intro t ht
      rw [hstate]
      exact AList.lookup_erase_ne ht
    · rw [hstate]
    · rw [hstate]

theorem effect_poll (env : PollEnv) : Effect g (leftBy (Group.poll [] env g)) := by
  unfold Group.poll
  split
  · exact .refl g
  next out deadline readiness hpoll => exact .poll env out deadline (fun _ ↦ rfl) hpoll rfl

theorem perform_effect (h : Idles g) {op : Op} (hopen : LeavesOpen g op) :
    Effect g (perform g op) := by
  cases op with
  | register conn env => exact effect_register conn env hopen
  | deregister token => exact effect_deregister token
  | close token app err reason env =>
    exact effect_onConn (fun c hidle ↦ close_turn hidle g.state.readiness app err reason env) hopen h
  | streamOpen token kind nonBlocking env =>
    exact effect_onConn (fun c hidle ↦ streamOpen_turn hidle g.state.readiness kind nonBlocking env)
      hopen h
  | streamShutdown token streamId err env =>
    exact effect_onConn (fun c hidle ↦ streamClose_turn hidle g.state.readiness streamId err env)
      hopen h
  | streamSend token streamId buf fin env => exact effect_streamSend h token streamId buf fin env
  | streamRecv token streamId len env => exact effect_streamRecv h token streamId len env
  | send token len now env => exact effect_send h token len now env
  | recv fromSlice buf info env => exact effect_recv h fromSlice buf info env
  | poll env => exact effect_poll env

theorem idles_effect (h : Idles g) (he : Effect g g') : Idles g' := by
  intro t c hc
  cases he with
  | none hconns => exact h t c (hconns t ▸ hc)
  | turn token d calls s closed hd hturn hends =>
    by_cases ht : t = token
    · subst ht
      rw [hends.here] at hc
      cases closed with
      | true => cases hc
      | false =>
        obtain rfl : s.conn = c := Option.some.inj hc
        exact hturn.idle
    · exact h t c (hends.others t ht ▸ hc)
  | arrive token q s hfree hturn hhere hothers =>
    by_cases ht : t = token
    · subst ht
      obtain rfl : s.conn = c := Option.some.inj (hhere.symm.trans hc)
      exact hturn.idle
    · exact h t c (hothers t ht ▸ hc)
  | leave token hhere hothers =>
    by_cases ht : t = token
    · subst ht
      rw [hhere] at hc
      cases hc
    · exact h t c (hothers t ht ▸ hc)
  | poll env out deadline hconns => exact h t c (hconns t ▸ hc)

end Effects

end ZeroRtt.Poll.Operations
