import ZeroRtt.Poll.Owing

namespace ZeroRtt.Poll.Minding

open ZeroRtt.Lib.Panics ZeroRtt.Lib.Containers ZeroRtt.Lib.Interface
open ZeroRtt.Api.Types ZeroRtt.Api.Quiche ZeroRtt.Poll.Schedule ZeroRtt.Poll.Conn
open ZeroRtt.Poll.Evolution ZeroRtt.Poll.Retries ZeroRtt.Poll.Unlock ZeroRtt.Poll.Locking
open ZeroRtt.Poll.RetryProtocol ZeroRtt.Poll.Owing ZeroRtt.Poll.Sections ZeroRtt.Poll.Walks

/-- The event tells whoever asked for `k` on the connection to try again. -/
def Reports (token : Token) (e : Event) : LocKind → Prop
  | .streamOpen kind => e.token = token ∧ e.kind = Ctx.streamOpenEvent kind
  | .streamSend id _ => e.token = token ∧ e.kind = .streamSend ∧ e.streamId = id
  | .streamRecv id => e.token = token ∧ e.kind = .streamRecv ∧ e.streamId = id
  | _ => False

def Polled : LocKind → Prop
  | .streamOpen _ | .streamSend .. | .streamRecv _ => True
  | _ => False

theorem Reports.kind_ne_send {token : Token} {e : Event} {k : LocKind} (h : Reports token e k) :
    e.kind ≠ .send := by
  cases k with
  | streamOpen kind => cases kind <;> simp [h.2, Ctx.streamOpenEvent]
  | streamSend id len => simp [h.2.1]
  | streamRecv id => simp [h.2.1]
  | _ => exact h.elim

section Plain

structure Plain (r : Readiness) : Prop where
  events : ∀ e ∈ r.events, e.kind ≠ .readLock
  delayed : ∀ e d, r.delayed.lookup e = some d → e.kind ≠ .readLock

variable {r : Readiness}

theorem Plain.insert (h : Plain r) {e : Event} (he : e.kind ≠ .readLock) (delayTo : Option Instant) :
    Plain (r.insert e delayTo) := by
  refine ⟨?_, ?_⟩
  · intro f hf
    by_cases hfe : f = e
    · rwa [hfe]
    · exact h.events f ((Readiness.events_insert_of_ne hfe delayTo).mp hf)
  · intro f d hd
    by_cases hfe : f = e
    · rwa [hfe]
    · rw [Readiness.delayed_insert_of_ne hfe] at hd
      exact h.delayed f d hd

theorem Plain.remove (h : Plain r) (e : Event) : Plain (r.remove e) := by
  refine ⟨fun f hf ↦ h.events f (Readiness.mem_events_remove.mp hf).2, ?_⟩
  intro f d hd
  by_cases hfe : f = e
  · rw [hfe, show (r.remove e).delayed.lookup e = none from AList.lookup_erase _ _] at hd
    cases hd
  · rw [show (r.remove e).delayed.lookup f = r.delayed.lookup f from AList.lookup_erase_ne hfe] at hd
    exact h.delayed f d hd

def PlainObs : Obs → Prop
  | .insert e _ => e.kind ≠ .readLock
  | _ => True

theorem Plain.foldl (h : Plain r) {obs : List Obs} (hobs : ∀ o ∈ obs, PlainObs o) :
    Plain (obs.foldl applyObs r) := by
  induction obs generalizing r with
  | nil => exact h
  | cons o obs ih =>
    refine ih ?_ fun o' ho' ↦ hobs o' (List.mem_cons_of_mem _ ho')
    have ho := hobs o (List.mem_cons_self ..)
    cases o with
    | readable id => exact h
    | insert e delayTo => exact h.insert ho delayTo
    | remove e => exact h.remove e

theorem eq_readLock_of_retryKind {k : LocKind} (h : retryKind k = some .readLock) :
    k = .readLock := by
  cases k with
  | readLock => rfl
  | streamOpen kind => cases kind <;> simp [retryKind, Ctx.streamOpenEvent] at h
  | _ => simp [retryKind] at h

theorem plain_insertions {events : List Event} (h : ∀ e ∈ events, e.kind ≠ .readLock) :
    ∀ o ∈ insertions events, PlainObs o := by
  intro o ho
  obtain ⟨e, he, rfl⟩ := List.mem_map.mp ho
  exact h e he

theorem plain_streamObs {o : Obs} (ho : StreamObs o) : PlainObs o := by
  cases o with
  | insert e delayTo => rcases ho.2 with hkind | hkind | hkind <;> simp [PlainObs, hkind]
  | _ => trivial

theorem plain_sendObs (s : Ctx) (q : Connection) (sendDone : Bool) (now : Instant) :
    PlainObs (sendObs s.event q sendDone now) := by
  unfold sendObs
  split
  · trivial
  · simp [PlainObs, Ctx.event]

theorem plain_stateEvents (s : Ctx) (established : Bool) (q : Connection) :
    ∀ e ∈ stateEvents s.event established q, e.kind ≠ .readLock := by
  intro e he
  obtain ⟨kind, hkind, rfl⟩ := stateEvents_kind he
  rcases hkind with rfl | rfl | rfl <;> simp [Ctx.event]

theorem plainObs_unlocked {s t : Ctx} {sendDone closed : Bool} {env : UnlockEnv}
    {log : List Handled} (h : Unlocked s sendDone env closed t log)
    (hreties : .readLock ∉ s.conn.reties) :
    ∃ obs, t.trace = s.trace ++ obs ∧ t.readiness = obs.foldl applyObs s.readiness ∧
      ∀ o ∈ obs, PlainObs o := by
  obtain ⟨nexts, streams, established, hevolves, -, hstreams⟩ := h.evolves
  have hlog : ∀ e ∈ logEvents s.event log, e.kind ≠ .readLock := by
    intro e he hkind
    obtain ⟨⟨k, q⟩, hmem, he⟩ := List.mem_flatMap.mp he
    refine hreties ((mem_reties_iff_log h).mpr ⟨q, ?_⟩)
    rw [← eq_readLock_of_retryKind (hkind ▸ retryEvents_kind he)]
    exact hmem
  refine ⟨_, hevolves.trace, hevolves.readiness, ?_⟩
  intro o ho
  rcases List.mem_append.mp ho with ho | ho
  · rcases List.mem_append.mp ho with ho | ho
    · exact plain_insertions hlog o ho
    · exact plain_streamObs (hstreams o ho)
  · rcases List.mem_cons.mp ho with rfl | ho
    · exact plain_sendObs s _ _ _
    · exact plain_insertions (plain_stateEvents s _ _) o ho

theorem plain_unlocked {s t : Ctx} {sendDone closed : Bool} {env : UnlockEnv} {log : List Handled}
    (h : Unlocked s sendDone env closed t log) (hreties : .readLock ∉ s.conn.reties)
    (hplain : Plain s.readiness) : .readLock ∉ t.conn.reties ∧ Plain t.readiness := by
  refine ⟨?_, ?_⟩
  · intro hmem
    obtain ⟨_, -, -, hwaits⟩ := (h.reties _).mp hmem
    cases hwaits
  · obtain ⟨obs, -, hreadiness, hobs⟩ := plainObs_unlocked h hreties
    rw [hreadiness]
    exact hplain.foldl hobs

end Plain

section Contexts

variable {s t u : Ctx}

/-- Later the operations of a connection are still minded: an operation stays
recorded, it is reported, or quiche owes a report. -/
structure Follows (s t : Ctx) : Prop where
  token : t.conn.token = s.conn.token
  wrapped : ∃ calls, t.conn.wrapped = s.conn.wrapped.after calls
  keeps : ∀ e, e.kind ≠ .send → e ∈ s.readiness.events → e ∈ t.readiness.events
  minded : ∀ k ∈ s.conn.reties, Polled k → k ∈ t.conn.reties ∨
    (∃ e ∈ t.readiness.events, Reports s.conn.token e k) ∨
    Owes s.conn.wrapped.history.length t.conn.wrapped k
  owed : ∀ n k, Owes n s.conn.wrapped k → Owes n t.conn.wrapped k ∨
    ∃ e ∈ t.readiness.events, Reports s.conn.token e k

structure Minds (s t : Ctx) : Prop extends Follows s t where
  plain : .readLock ∉ s.conn.reties → Plain s.readiness →
    .readLock ∉ t.conn.reties ∧ Plain t.readiness

theorem length_history_after (q : Connection) (calls : List Call) :
    q.history.length ≤ (q.after calls).history.length := by
  rw [history_after, List.length_append]
  omega

theorem Follows.trans (h : Follows s t) (h' : Follows t u) : Follows s u := by
  obtain ⟨xs, hxs⟩ := h.wrapped
  obtain ⟨ys, hys⟩ := h'.wrapped
  have hle : s.conn.wrapped.history.length ≤ t.conn.wrapped.history.length := by
    rw [hxs]
    exact length_history_after _ _
  have hkept : ∀ k, (∃ e ∈ t.readiness.events, Reports s.conn.token e k) →
      ∃ e ∈ u.readiness.events, Reports s.conn.token e k := by
    rintro k ⟨e, he, hreports⟩
    exact ⟨e, h'.keeps e hreports.kind_ne_send he, hreports⟩
  have howed : ∀ n k, Owes n t.conn.wrapped k → Owes n u.conn.wrapped k ∨
      ∃ e ∈ u.readiness.events, Reports s.conn.token e k := by
    intro n k howes
    rw [← h.token]
    exact h'.owed n k howes
  refine ⟨h'.token.trans h.token, ⟨xs ++ ys, by rw [hys, hxs, Connection.after_after]⟩,
    fun e he hmem ↦ h'.keeps e he (h.keeps e he hmem), ?_, ?_⟩
  · intro k hk hpolled
    rcases h.minded k hk hpolled with hk | hreports | howes
    · rcases h'.minded k hk hpolled with hk | hreports | howes
      · exact .inl hk
      · rw [h.token] at hreports
        exact .inr (.inl hreports)
      · exact .inr (.inr (howes.mono hle))
    · exact .inr (.inl (hkept k hreports))
    · exact .inr (howed _ k howes).symm
  · intro n k howes
    rcases h.owed n k howes with howes | hreports
    · exact howed n k howes
    · exact .inr (hkept k hreports)

theorem Follows.of_keeps {c : QuicConn} {r r' : Readiness} {xs ys : List Obs}
    (h : ∀ e, e.kind ≠ .send → e ∈ r.events → e ∈ r'.events) :
    Follows ⟨c, r, xs⟩ ⟨c, r', ys⟩ :=
  ⟨rfl, ⟨[], (Connection.after_nil _).symm⟩, h, fun _ hk _ ↦ .inl hk, fun _ _ howes ↦ .inl howes⟩

theorem Minds.trans (h : Minds s t) (h' : Minds t u) : Minds s u := by
  refine ⟨h.toFollows.trans h'.toFollows, ?_⟩
  intro hreties hplain
  obtain ⟨hreties, hplain⟩ := h.plain hreties hplain
  exact h'.plain hreties hplain

theorem Minds.of_reties {calls : List Call} (htoken : t.conn.token = s.conn.token)
    (hwrapped : t.conn.wrapped = s.conn.wrapped.after calls)
    (hcalls : .streamWritableNext ∉ calls) (hreadiness : t.readiness = s.readiness)
    (hreties : ∀ k ∈ s.conn.reties, k ∈ t.conn.reties)
    (hplain : .readLock ∉ s.conn.reties → .readLock ∉ t.conn.reties) : Minds s t := by
  refine ⟨⟨htoken, ⟨calls, hwrapped⟩, fun e _ he ↦ by rwa [hreadiness],
    fun k hk _ ↦ .inl (hreties k hk), ?_⟩, ?_⟩
  · intro n k howes
    rw [hwrapped]
    exact .inl (howes.after fun id len _ ↦ unreported_of_notMem _ hcalls id)
  · intro h h'
    rw [hreadiness]
    exact ⟨hplain h, h'⟩

theorem minds_afterCalls (s : Ctx) {calls : List Call} (h : .streamWritableNext ∉ calls) :
    Minds s (afterCalls s calls) :=
  .of_reties rfl rfl h rfl (fun _ hk ↦ hk) id

theorem minds_retryLater (s : Ctx) (kind : StreamKind) :
    Minds s (s.retryLater (.streamOpen kind)) := by
  refine .of_reties rfl (Connection.after_nil _).symm List.not_mem_nil rfl
    (fun _ hk ↦ HashSet.mem_insert.mpr (.inr hk)) ?_
  intro h hmem
  rcases HashSet.mem_insert.mp hmem with hmem | hmem
  · cases hmem
  · exact h hmem

theorem minds_streamOpenPrv (s : Ctx) (kind : StreamKind) : Minds s (s.streamOpenPrv kind).2 := by
  obtain ⟨hevolves, hreties⟩ := evolves_streamOpenPrv s kind
  refine .of_reties hevolves.token hevolves.wrapped ?_ hevolves.readiness
    (fun k hk ↦ hreties ▸ hk) fun h ↦ hreties ▸ h
  unfold openCalls
  split <;> simp

theorem minds_tryLockPrv {kind : LocKind} (hkind : kind ≠ .readLock)
    {r : Except Error LockContext} {c : QuicConn} (h : s.conn.tryLockPrv kind = .ok (r, c)) :
    Minds s { s with conn := c } := by
  rcases tryLockPrv_cases h with ⟨_, n, b, k, -, rfl⟩ | ⟨-, rfl⟩
  · exact .of_reties rfl (Connection.after_nil _).symm List.not_mem_nil rfl (fun _ hk ↦ hk) id
  · have hsame : (s.conn.refuse kind).wrapped = s.conn.wrapped := by
      unfold QuicConn.refuse
      cases kind.needRetry <;> rfl
    refine .of_reties (continues_refuse s.conn kind).token
      (hsame.trans (Connection.after_nil _).symm) List.not_mem_nil rfl
      (fun k hk ↦ (refuse_reties _ _ _).mpr (.inl hk)) ?_
    intro hnot hmem
    rcases (refuse_reties _ _ _).mp hmem with hmem | ⟨heq, -⟩
    · exact hnot hmem
    · exact hkind heq.symm

theorem owes_of_log {q : Connection} {log : List Handled} {nexts : List Call} {id len : ℕ}
    {before after : List Handled} {q' : Connection}
    (hlog : log = before ++ ⟨.streamSend id len, q'⟩ :: after)
    (hq : q' = q.after (logCalls before))
    (hanswer : (q'.call (.streamWritable id len)).1 = .ok false)
    (hunreported : Unreported q.history.length (q.after (logCalls log ++ nexts)) id) :
    Owes q.history.length (q.after (logCalls log ++ nexts)) (.streamSend id len) := by
  have hle : q.history.length ≤ (q.history ++ logCalls before).length := by
    rw [List.length_append]
    omega
  refine ⟨q.history ++ logCalls before, logCalls after ++ nexts, ?_, hle, ?_, hunreported.mono hle⟩
  · rw [history_after, hlog]
    simp [logCalls, retryCalls]
  · rw [hq] at hanswer
    exact hanswer

theorem keeps_unlocked {sendDone closed : Bool} {env : UnlockEnv} {log : List Handled}
    (h : Unlocked s sendDone env closed t log) (e : Event) (he : e.kind ≠ .send)
    (hmem : e ∈ s.readiness.events) : e ∈ t.readiness.events := by
  obtain ⟨nexts, streams, established, hevolves, -, hstreams⟩ := h.evolves
  rw [hevolves.readiness]
  refine keeps_foldl ?_ hmem
  intro o ho
  rcases List.mem_append.mp ho with ho | ho
  · rcases List.mem_append.mp ho with ho | ho
    · exact keeps_insertions _ o ho
    · exact keeps_streamObs (hstreams o ho)
  · rcases List.mem_cons.mp ho with rfl | ho
    · exact keeps_sendObs he
    · exact keeps_insertions _ o ho

theorem minds_unlock {n : ℕ} {sendDone closed : Bool} {env : UnlockEnv}
    (h : s.unlock n sendDone env = .ok (closed, t)) :
    Minds s t ∧ (closed = true → s.event .closed false 0 ∈ t.readiness.events) := by
  obtain ⟨m, b, k, log, hspec⟩ := unlocked_of_ok h
  obtain ⟨nexts, streams, established, hevolves, -, -⟩ := hspec.evolves
  have hsettled := settled hspec
  have hreport := unreported_unlock h
  refine ⟨⟨⟨hevolves.token, ⟨_, hevolves.wrapped⟩,
    fun e he hmem ↦ keeps_unlocked hspec e he hmem, ?_, ?_⟩,
    fun hreties hplain ↦ plain_unlocked hspec hreties hplain⟩, ?_⟩
  · intro k hk hpolled
    obtain ⟨before, q, after, hlog, hq, -⟩ := hsettled.once k hk
    have hmem : ⟨k, q⟩ ∈ log := by simp [hlog]
    cases k with
    | streamOpen kind =>
      have hopen := hsettled.streamOpen kind q hmem
      split at hopen
      · exact .inr (.inl ⟨_, hopen, rfl, rfl⟩)
      · exact .inl hopen
    | streamRecv id => exact .inr (.inl ⟨_, hsettled.streamRecv id hk, rfl, rfl, rfl⟩)
    | streamSend id len =>
      have hsend := hsettled.streamSend id len q hmem
      split at hsend
      next => exact .inr (.inl ⟨_, hsend, rfl, rfl, rfl⟩)
      next hanswer =>
        rcases hreport id with hunreported | hevent
        · rw [hevolves.wrapped] at hunreported ⊢
          exact .inr (.inr (owes_of_log hlog hq hanswer hunreported))
        · exact .inr (.inl ⟨_, hevent, rfl, rfl, rfl⟩)
      next => exact .inr (.inl ⟨_, hsend, rfl, rfl, rfl⟩)
    | _ => exact hpolled.elim
  · intro n k howes
    cases k with
    | streamSend id len =>
      rcases hreport id with hunreported | hevent
      · left
        rw [hevolves.wrapped] at hunreported ⊢
        apply howes.after
        rintro id' len' ⟨⟩
        exact hunreported
      · exact .inr ⟨_, hevent, rfl, rfl, rfl⟩
    | _ => exact howes.elim
  · intro hclosed
    have hstate : s.event .closed false 0 ∈ stateEvents s.event established t.conn.wrapped := by
      rw [hspec.closed_eq] at hclosed
      simp [stateEvents, hclosed]
    rw [hevolves.readiness, List.foldl_append, List.foldl_cons]
    exact mem_events_foldl (List.mem_map_of_mem hstate) (keeps_insertions _)

theorem elementary_minds : Elementary Minds where
  trans := Minds.trans
  lock hkind hlock := minds_tryLockPrv hkind hlock
  calls := minds_afterCalls _
  opens := minds_streamOpenPrv
  later := minds_retryLater
  unlock hrun := (minds_unlock hrun).1

theorem streamOpenPrv_ne_busy (s : Ctx) (kind : StreamKind) :
    (s.streamOpenPrv kind).1 ≠ .error .busy := by
  unfold Ctx.streamOpenPrv
  split
  · simp
  · dsimp only
    split
    · simp
    · simp

theorem mem_reties_of_busy {kind : StreamKind} {nonBlocking : Bool} {env : UnlockEnv}
    (h : s.streamOpen kind nonBlocking env = .ok (.error .busy, t)) :
    .streamOpen kind ∈ t.conn.reties := by
  obtain ⟨⟨guard, c⟩, hlock, h⟩ := bind_ok h
  rcases tryLockPrv_cases hlock with ⟨context, n, b, k, rfl, -⟩ | ⟨rfl, rfl⟩
  · have hbusy := streamOpenPrv_ne_busy { s with conn := c } kind
    dsimp only at h
    split at h
    next u hu =>
      obtain ⟨⟨closed, v⟩, -, h⟩ := bind_ok h
      cases nonBlocking <;> cases h
    next answer u _ hu =>
      rw [hu] at hbusy
      obtain ⟨⟨closed, v⟩, -, h⟩ := bind_ok h
      cases answer with
      | ok id => cases h
      | error err =>
        cases h
        exact absurd rfl hbusy
  · cases h
    exact (refuse_reties _ _ _).mpr (.inr ⟨rfl, rfl⟩)

end Contexts

section Groups

variable {α : Type} {g g' g'' : Group} {token : Token}

structure Quiet (g : Group) : Prop where
  readiness : Plain g.state.readiness
  conns : ∀ token c, g.state.conns.lookup token = some c → .readLock ∉ c.reties

/-- A step of the group that forgets no operation of any connection. A connection
that it takes out is reported as closed. -/
structure Watches (g g' : Group) : Prop where
  keeps : ∀ e, e.kind ≠ .send → e ∈ g.state.readiness.events → e ∈ g'.state.readiness.events
  conns : ∀ token c, g.state.conns.lookup token = some c →
    (∃ c', g'.state.conns.lookup token = some c' ∧ Follows (g.state.ctx c) (g'.state.ctx c')) ∨
    ∃ e ∈ g'.state.readiness.events, e.kind = .closed ∧ e.token = c.token
  keyed : ∀ token c', g'.state.conns.lookup token = some c' →
    c'.token = token ∨ ∃ c, g.state.conns.lookup token = some c ∧ c'.token = c.token
  quiet : Quiet g → Quiet g'

theorem Watches.of_state_eq (hconns : g'.state.conns = g.state.conns)
    (hreadiness : g'.state.readiness = g.state.readiness) : Watches g g' := by
  refine ⟨fun e _ he ↦ by rwa [hreadiness], ?_, ?_, ?_⟩
  · intro token c hc
    refine .inl ⟨c, by rwa [hconns], .of_keeps ?_⟩
    intro e _ he
    rwa [hreadiness]
  · intro token c' hc'
    rw [hconns] at hc'
    exact .inr ⟨c', hc', rfl⟩
  · rintro ⟨hplain, hreties⟩
    exact ⟨by rwa [hreadiness], by rwa [hconns]⟩

theorem Watches.refl (g : Group) : Watches g g := .of_state_eq rfl rfl

theorem Watches.trans (h : Watches g g') (h' : Watches g' g'') : Watches g g'' := by
  refine ⟨fun e he hmem ↦ h'.keeps e he (h.keeps e he hmem), ?_, ?_, fun hq ↦ h'.quiet (h.quiet hq)⟩
  · intro token c hc
    rcases h.conns token c hc with ⟨c', hc', hminds⟩ | ⟨e, he, hclosed, htoken⟩
    · rcases h'.conns token c' hc' with ⟨c'', hc'', hminds'⟩ | ⟨e, he, hclosed, htoken⟩
      · exact .inl ⟨c'', hc'', hminds.trans hminds'⟩
      · exact .inr ⟨e, he, hclosed, htoken.trans hminds.token⟩
    · exact .inr ⟨e, h'.keeps e (by simp [hclosed]) he, hclosed, htoken⟩
  · intro token c'' hc''
    rcases h'.keyed token c'' hc'' with heq | ⟨c', hc', htoken'⟩
    · exact .inl heq
    · rcases h.keyed token c' hc' with heq | ⟨c, hc, htoken⟩
      · exact .inl (htoken'.trans heq)
      · exact .inr ⟨c, hc, htoken'.trans htoken⟩

theorem Watches.of_insert {c' : QuicConn} (hconns : g'.state.conns = g.state.conns.insert token c')
    (hkeeps : ∀ e, e.kind ≠ .send → e ∈ g.state.readiness.events → e ∈ g'.state.readiness.events)
    (hplain : Quiet g → .readLock ∉ c'.reties ∧ Plain g'.state.readiness)
    (hfollows : ∀ c, g.state.conns.lookup token = some c →
      Follows (g.state.ctx c) (g'.state.ctx c'))
    (hkeyed : c'.token = token ∨
      ∃ c, g.state.conns.lookup token = some c ∧ c'.token = c.token) : Watches g g' := by
  refine ⟨hkeeps, ?_, ?_, ?_⟩
  · intro t c hc
    rw [hconns]
    by_cases ht : t = token
    · subst ht
      exact .inl ⟨c', AList.lookup_insert _, hfollows c hc⟩
    · exact .inl ⟨c, by rw [AList.lookup_insert_ne ht, hc], .of_keeps hkeeps⟩
  · intro t c hc
    rw [hconns] at hc
    by_cases ht : t = token
    · subst ht
      rw [AList.lookup_insert] at hc
      cases hc
      exact hkeyed
    · rw [AList.lookup_insert_ne ht] at hc
      exact .inr ⟨c, hc, rfl⟩
  · intro hquiet
    obtain ⟨hreties, hplain⟩ := hplain hquiet
    refine ⟨hplain, ?_⟩
    intro t c hc
    rw [hconns] at hc
    by_cases ht : t = token
    · subst ht
      rw [AList.lookup_insert] at hc
      cases hc
      exact hreties
    · rw [AList.lookup_insert_ne ht] at hc
      exact hquiet.conns t c hc

theorem Watches.put {c : QuicConn} {s : Ctx} (hc : g.state.conns.lookup token = some c)
    (h : Minds (g.state.ctx c) s) : Watches g { g with state := g.state.put token s } := by
  refine .of_insert rfl h.keeps (fun hq ↦ h.plain (hq.conns token c hc) hq.readiness) ?_
    (.inr ⟨c, hc, h.token⟩)
  intro c' hc'
  rw [hc] at hc'
  cases hc'
  exact ⟨h.token, h.wrapped, h.keeps, h.minded, h.owed⟩

theorem carries_watches : Carries Minds Watches where
  refl := .refl
  trans := .trans
  unparked _ _ := .of_state_eq rfl rfl
  put := .put

theorem watches_lock (token : Token) {kind : LocKind} (hkind : kind ≠ .readLock) (g : Group) :
    Watches g (leftBy (Group.lock token kind g)) :=
  carries_watches.operation (fun _ _ _ h ↦ elementary_minds.steady.tryLock hkind h) token g

theorem onConn_busy {f : Ctx → Rust (Except Error α × Ctx)}
    (h : (do return (← Group.onConn token f).bind id : Section (Except Error α)) g =
      .ok (.error .busy) g') :
    ∃ c s, f (g.state.ctx c) = .ok (.error .busy, s) ∧
      g'.state.conns.lookup token = some s.conn := by
  cases hc : g.state.conns.lookup token with
  | none =>
    rw [bind_of_ok (onConn_of_none hc)] at h
    cases h
  | some c =>
    cases hrun : f (g.state.ctx c) with
    | error panic =>
      simp only [bind, EStateM.bind, Group.onConn, hc, hrun] at h
      cases h
    | ok r =>
      obtain ⟨r, s⟩ := r
      rw [bind_of_ok (onConn_of_some hc hrun)] at h
      cases r with
      | ok a => cases h
      | error err =>
        cases h
        exact ⟨c, s, hrun, AList.lookup_insert _⟩

theorem mem_reties_of_lock_busy {kind : LocKind} (hkind : kind.needRetry = true)
    (h : Group.lock token kind g = .ok (.error .busy) g') :
    ∃ c, g'.state.conns.lookup token = some c ∧ kind ∈ c.reties := by
  obtain ⟨c, s, hrun, hs⟩ := onConn_busy h
  obtain ⟨⟨r, c'⟩, hlock, heq⟩ := bind_ok hrun
  refine ⟨s.conn, hs, ?_⟩
  rcases tryLockPrv_cases hlock with ⟨context, n, b, k, rfl, -⟩ | ⟨rfl, rfl⟩
  · cases heq
  · cases heq
    exact (refuse_reties _ _ _).mpr (.inr ⟨rfl, hkind⟩)

theorem mem_reties_of_streamOpen_busy {kind : StreamKind} {nonBlocking : Bool} {env : UnlockEnv}
    (h : Group.streamOpen token kind nonBlocking env g = .ok (.error .busy) g') :
    ∃ c, g'.state.conns.lookup token = some c ∧ .streamOpen kind ∈ c.reties := by
  obtain ⟨c, s, hrun, hs⟩ := onConn_busy h
  exact ⟨s.conn, hs, mem_reties_of_busy hrun⟩

theorem watches_close (token : Token) (app : Bool) (err : ℕ) (reason : Bytes) (env : UnlockEnv)
    (g : Group) : Watches g (leftBy (Group.close token app err reason env g)) :=
  carries_watches.operation (fun _ _ _ h ↦ elementary_minds.steady.close h) token g

theorem watches_streamShutdown (token : Token) (streamId err : ℕ) (env : UnlockEnv) (g : Group) :
    Watches g (leftBy (Group.streamShutdown token streamId err env g)) :=
  carries_watches.operation (fun _ _ _ h ↦ elementary_minds.steady.streamClose h) token g

theorem watches_streamOpen (token : Token) (kind : StreamKind) (nonBlocking : Bool)
    (env : UnlockEnv) (g : Group) :
    Watches g (leftBy (Group.streamOpen token kind nonBlocking env g)) :=
  carries_watches.operation (fun _ _ _ h ↦ elementary_minds.streamOpen h) token g

theorem watches_lockRecv (token : Token) (unparker : Option Unparker) (g : Group) :
    Watches g (leftBy (Group.lockRecv token unparker g)) :=
  carries_watches.lockRecv (fun _ _ _ h ↦ elementary_minds.steady.tryLock (by simp) h) token unparker g

theorem watches_derefMut (guard : Guard) {c : Call} (hc : c ≠ .streamWritableNext) (g : Group) :
    Watches g (leftBy (Group.derefMut guard c g)) :=
  carries_watches.derefMut (elementary_minds.steady.call hc) guard g

theorem Watches.erase (hconns : g'.state.conns = g.state.conns.erase token)
    (hreadiness : g'.state.readiness = g.state.readiness)
    (hclosed : ∀ c, g.state.conns.lookup token = some c →
      ∃ e ∈ g.state.readiness.events, e.kind = .closed ∧ e.token = c.token) : Watches g g' := by
  have hkeeps : ∀ e : Event, e.kind ≠ .send → e ∈ g.state.readiness.events →
      e ∈ g'.state.readiness.events := fun e _ he ↦ by rwa [hreadiness]
  have hleft : ∀ t c, g'.state.conns.lookup t = some c → g.state.conns.lookup t = some c := by
    intro t c hc
    rw [hconns] at hc
    by_cases ht : t = token
    · rw [ht, AList.lookup_erase] at hc
      cases hc
    · rwa [AList.lookup_erase_ne ht] at hc
  refine ⟨hkeeps, ?_, fun t c hc ↦ .inr ⟨c, hleft t c hc, rfl⟩, ?_⟩
  · intro t c hc
    by_cases ht : t = token
    · subst ht
      rw [hreadiness]
      exact .inr (hclosed c hc)
    · refine .inl ⟨c, ?_, .of_keeps hkeeps⟩
      rw [hconns, AList.lookup_erase_ne ht, hc]
  · rintro ⟨hplain, hreties⟩
    exact ⟨by rwa [hreadiness], fun t c hc ↦ hreties t c (hleft t c hc)⟩

theorem watches_deregister (hclosed : ∀ c, g.state.conns.lookup token = some c →
    ∃ e ∈ g.state.readiness.events, e.kind = .closed ∧ e.token = c.token) :
    Watches g (leftBy (Group.deregister token g)) := by
  cases hc : g.state.conns.lookup token with
  | none =>
    rw [deregister_of_none hc]
    exact .refl g
  | some c =>
    unfold Group.deregister
    rw [bind_of_ok (takeConn_of_some hc)]
    dsimp only
    rw [leftBy_bind fun a g ↦ rfl]
    unfold Group.takeScid
    dsimp only
    split
    · exact .erase rfl rfl hclosed
    · exact .erase rfl rfl hclosed

theorem watches_unlock (ctx : LockContext) (env : UnlockEnv) (g : Group) :
    Watches g (leftBy (Group.unlock ctx env g)) := by
  have hsection : Watches g (leftBy (Group.unlockConn ctx env g)) :=
    carries_watches.unlockConn (fun _ _ _ h ↦ (minds_unlock h).1) g
  unfold Group.unlock
  cases hunlock : Group.unlockConn ctx env g with
  | error panic g' =>
    rw [hunlock] at hsection
    simp only [bind, EStateM.bind, hunlock]
    exact hsection
  | ok closed g' =>
    rw [hunlock] at hsection
    rw [bind_of_ok hunlock]
    apply Watches.trans (show Watches g g' from hsection)
    cases closed with
    | false => exact .refl _
    | true =>
      obtain ⟨c, s, -, hrun, rfl⟩ := unlockConn_ok hunlock
      obtain ⟨hminds, hclosed⟩ := minds_unlock hrun
      simp only [if_true]
      rw [leftBy_bind fun a g ↦ rfl]
      apply watches_deregister
      intro c' hc'
      rw [show (State.put _ ctx.token s).conns.lookup ctx.token = some s.conn from
        AList.lookup_insert _] at hc'
      cases hc'
      exact ⟨_, hclosed rfl, rfl, hminds.token.symm⟩

theorem watches_register (q : Connection) (env : UnlockEnv) (g : Group) :
    Watches g (leftBy (Group.register q env g)) := by
  have hcases := register_cases g q env
  generalize Group.register q env g = r at hcases ⊢
  cases hcases with
  | hangs => exact .refl g
  | taken token tokenNext hnone hscid => exact .of_state_eq rfl rfl
  | @fresh token tokenNext n b k closed s log hnone hscid hunlocked hheld hcont =>
    refine .of_insert rfl (keeps_unlocked hunlocked) ?_ ?_ (.inl hcont.token)
    · intro hquiet
      exact plain_unlocked hunlocked List.not_mem_nil hquiet.readiness
    · intro c hc
      rw [hnone] at hc
      cases hc

end Groups

end ZeroRtt.Poll.Minding
