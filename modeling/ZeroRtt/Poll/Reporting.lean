import ZeroRtt.Poll.Deliveries
import ZeroRtt.Poll.Steps

namespace ZeroRtt.Poll.Reporting

open ZeroRtt.Lib.Panics ZeroRtt.Lib.Containers ZeroRtt.Lib.Runs ZeroRtt.Lib.Ledgers
open ZeroRtt.Api.Types ZeroRtt.Api.Quiche ZeroRtt.Poll.Schedule ZeroRtt.Poll.Conn
open ZeroRtt.Poll.Evolution ZeroRtt.Poll.Retries ZeroRtt.Poll.Unlock ZeroRtt.Poll.Locking
open ZeroRtt.Poll.Sections ZeroRtt.Poll.Walks ZeroRtt.Poll.Interleaving ZeroRtt.Poll.Chronicle
open ZeroRtt.Poll.Deliveries ZeroRtt.Poll.Steps
open ZeroRtt.Poll.GuardLifetime (takes)

structure Proper (e : Event) : Prop where
  error : e.isError = true → e.kind = .closed ∨ e.kind = .streamSend
  stream : e.streamId ≠ 0 → e.kind = .streamSend ∨ e.kind = .streamRecv ∨ e.kind = .streamAccept
  remote : e.kind = .streamAccept → isLocal e.streamId e.isServer = false
  accept : e.kind = .accept → e.isServer = true
  connected : e.kind = .connected → e.isServer = false

structure Of (token : Token) (isServer : Bool) (e : Event) : Prop where
  token : e.token = token
  isServer : e.isServer = isServer
  proper : Proper e

def Greeting (e : Event) : Prop := e.kind = .accept ∨ e.kind = .connected

instance (e : Event) : Decidable (Greeting e) := inferInstanceAs (Decidable (_ ∨ _))

def greetings (events : List Event) : List Event := events.filter fun e ↦ Greeting e

def greeting (token : Token) (isServer : Bool) : Event :=
  ⟨token, if isServer then .accept else .connected, isServer, false, 0⟩

/-- What is reported as `before` turns into `after`. -/
def greets (token : Token) (isServer before after : Bool) : List Event :=
  if !before && after then [greeting token isServer] else []

theorem greetings_append (xs ys : List Event) :
    greetings (xs ++ ys) = greetings xs ++ greetings ys := List.filter_append ..

theorem greetings_eq_nil {events : List Event} (h : ∀ e ∈ events, ¬ Greeting e) :
    greetings events = [] := List.filter_eq_nil_iff.mpr fun e he ↦ by simpa using h e he

theorem greets_trans {token : Token} {isServer a b c : Bool} (hab : a = true → b = true)
    (hbc : b = true → c = true) :
    greets token isServer a b ++ greets token isServer b c = greets token isServer a c := by
  cases a <;> cases b <;> cases c <;> simp [greets] at hab hbc ⊢

section Contexts

variable {s t u : Ctx}

/-- A step of a connection that tells nothing but proper events of its own, and tells that it
is established as it takes note of it. -/
structure Reports (s t : Ctx) : Prop where
  token : t.conn.token = s.conn.token
  isServer : t.conn.wrapped.isServer = s.conn.wrapped.isServer
  established : s.conn.established = true → t.conn.established = true
  obs : ∃ obs, t.trace = s.trace ++ obs ∧
    (∀ e ∈ insertedBy obs, Of s.conn.token s.conn.wrapped.isServer e) ∧
    greetings (insertedBy obs) = greets s.conn.token s.conn.wrapped.isServer s.conn.established
      t.conn.established

theorem Reports.trans (h : Reports s t) (h' : Reports t u) : Reports s u := by
  obtain ⟨xs, htrace, hxs, hgreets⟩ := h.obs
  obtain ⟨ys, htrace', hys, hgreets'⟩ := h'.obs
  rw [h.token, h.isServer] at hys hgreets'
  refine ⟨h'.token.trans h.token, h'.isServer.trans h.isServer, h'.established ∘ h.established,
    xs ++ ys, ?_, ?_, ?_⟩
  · rw [htrace', htrace, List.append_assoc]
  · intro e he
    rw [insertedBy_append] at he
    exact (List.mem_append.mp he).elim (hxs e) (hys e)
  · rw [insertedBy_append, greetings_append, hgreets, hgreets']
    exact greets_trans h.established h'.established

theorem reports_of (obs : List Obs) (htoken : t.conn.token = s.conn.token)
    (hserver : t.conn.wrapped.isServer = s.conn.wrapped.isServer)
    (hestablished : t.conn.established = s.conn.established) (htrace : t.trace = s.trace ++ obs)
    (hobs : ∀ e ∈ insertedBy obs, Of s.conn.token s.conn.wrapped.isServer e ∧ ¬ Greeting e) :
    Reports s t := by
  refine ⟨htoken, hserver, fun h ↦ hestablished.trans h, obs, htrace, fun e he ↦ (hobs e he).1, ?_⟩
  rw [greetings_eq_nil fun e he ↦ (hobs e he).2, greets, hestablished]
  cases s.conn.established <;> rfl

theorem reports_of_trace_eq (htoken : t.conn.token = s.conn.token)
    (hserver : t.conn.wrapped.isServer = s.conn.wrapped.isServer)
    (hestablished : t.conn.established = s.conn.established) (htrace : t.trace = s.trace) :
    Reports s t :=
  reports_of [] htoken hserver hestablished (by rw [htrace, List.append_nil])
    fun e he ↦ by cases he

theorem Reports.refl (s : Ctx) : Reports s s := reports_of_trace_eq rfl rfl rfl rfl

theorem reports_insert (s : Ctx) {e : Event} {d : Option Instant}
    (he : Of s.conn.token s.conn.wrapped.isServer e) (hgreeting : ¬ Greeting e) :
    Reports s (s.insert e d) := by
  refine reports_of [.insert e d] rfl rfl rfl rfl fun f hf ↦ ?_
  obtain rfl : f = e := List.mem_singleton.mp hf
  exact ⟨he, hgreeting⟩

theorem reports_refuse (s : Ctx) (kind : LocKind) :
    Reports s { s with conn := s.conn.refuse kind } := by
  unfold QuicConn.refuse
  split <;> exact reports_of_trace_eq rfl rfl rfl rfl

theorem reports_call (s : Ctx) (c : Call) : Reports s (s.call c).2 :=
  reports_of_trace_eq rfl rfl rfl rfl

theorem of_event (s : Ctx) {kind : EventKind} {isError : Bool}
    (herror : isError = true → kind = .closed ∨ kind = .streamSend)
    (haccept : kind = .accept → s.conn.wrapped.isServer = true)
    (hconnected : kind = .connected → s.conn.wrapped.isServer = false)
    (hstream : kind ≠ .streamAccept) :
    Of s.conn.token s.conn.wrapped.isServer (s.event kind isError 0) :=
  ⟨rfl, rfl, herror, fun h ↦ absurd rfl h, fun h ↦ absurd h hstream, haccept, hconnected⟩

theorem of_streamEvent (s : Ctx) (kind : EventKind) (isError : Bool) (id : ℕ)
    (herror : isError = true → kind = .closed ∨ kind = .streamSend)
    (hkind : kind = .streamSend ∨ kind = .streamRecv) :
    Of s.conn.token s.conn.wrapped.isServer (s.event kind isError id) ∧
      ¬ Greeting (s.event kind isError id) := by
  have hne : kind ≠ .streamAccept ∧ kind ≠ .accept ∧ kind ≠ .connected := by
    rcases hkind with rfl | rfl <;> decide
  refine ⟨⟨rfl, rfl, herror, fun _ ↦ hkind.imp_right .inl, fun h ↦ absurd h hne.1,
    fun h ↦ absurd h hne.2.1, fun h ↦ absurd h hne.2.2⟩, ?_⟩
  rintro (h | h)
  · exact hne.2.1 h
  · exact hne.2.2 h

theorem of_plainEvent (s : Ctx) (kind : EventKind) (isError : Bool)
    (herror : isError = true → kind = .closed ∨ kind = .streamSend)
    (hkind : kind ≠ .streamAccept ∧ kind ≠ .accept ∧ kind ≠ .connected) :
    Of s.conn.token s.conn.wrapped.isServer (s.event kind isError 0) ∧
      ¬ Greeting (s.event kind isError 0) := by
  refine ⟨of_event s herror (fun h ↦ absurd h hkind.2.1) (fun h ↦ absurd h hkind.2.2) hkind.1, ?_⟩
  rintro (h | h)
  · exact hkind.2.1 h
  · exact hkind.2.2 h

theorem of_retryEvents {q : Connection} {k : LocKind} {e : Event}
    (he : e ∈ retryEvents s.event q k) :
    Of s.conn.token s.conn.wrapped.isServer e ∧ ¬ Greeting e := by
  cases k with
  | recv =>
    obtain rfl := List.mem_singleton.mp he
    exact of_plainEvent s _ _ (by simp) (by decide)
  | readLock =>
    obtain rfl := List.mem_singleton.mp he
    exact of_plainEvent s _ _ (by simp) (by decide)
  | streamRecv id =>
    obtain rfl := List.mem_singleton.mp he
    exact of_streamEvent s _ _ id (by simp) (.inr rfl)
  | close app err reason =>
    simp only [retryEvents] at he
    split at he
    · split at he
      · obtain rfl := List.mem_singleton.mp he
        exact of_plainEvent s _ _ (fun _ ↦ .inl rfl) (by decide)
      · cases he
    · cases he
  | streamOpen kind =>
    simp only [retryEvents] at he
    split at he
    · obtain rfl := List.mem_singleton.mp he
      exact of_plainEvent s _ _ (by simp) (by cases kind <;> decide)
    · cases he
  | streamSend id len =>
    simp only [retryEvents] at he
    split at he
    · split at he
      · obtain rfl := List.mem_singleton.mp he
        exact of_streamEvent s _ _ id (by simp) (.inl rfl)
      · cases he
    · obtain rfl := List.mem_singleton.mp he
      exact of_streamEvent s _ _ id (fun _ ↦ .inr rfl) (.inl rfl)
  | _ => cases he

theorem insertedBy_insertions (events : List Event) : insertedBy (insertions events) = events := by
  induction events with
  | nil => rfl
  | cons e events ih => exact congrArg (e :: ·) ih

theorem reports_handleRetryEvents {env : UnlockEnv}
    (h : s.handleRetryEvents env = .ok t)
    (hevolves : Evolves s t (logCalls (recorded s env))
      (insertions (logEvents s.event (recorded s env)))) : Reports s t := by
  refine reports_of _ hevolves.token hevolves.isServer (handleRetryEvents_established h)
    hevolves.trace fun e he ↦ ?_
  rw [insertedBy_insertions] at he
  obtain ⟨handled, -, he⟩ := List.mem_flatMap.mp he
  exact of_retryEvents he

theorem reports_writableLoop (n : ℕ) (s : Ctx) : Reports s (Ctx.writableLoop n s) := by
  induction n generalizing s with
  | zero => exact .refl s
  | succ n ih =>
    have hcall := reports_call s .streamWritableNext
    unfold Ctx.writableLoop
    rcases hs : s.call .streamWritableNext with ⟨_ | id, t⟩
    · rwa [hs] at hcall
    · rw [hs] at hcall
      obtain ⟨hof, hgreeting⟩ := of_streamEvent t .streamSend false id (by simp) (.inl rfl)
      exact (hcall.trans (reports_insert t hof hgreeting)).trans (ih _)

theorem of_reportEvent (s : Ctx) (id : ℕ) :
    Of s.conn.token s.conn.wrapped.isServer
        (reportEvent s.conn.token s.conn.wrapped.isServer (seenOf s.conn) id) ∧
      ¬ Greeting (reportEvent s.conn.token s.conn.wrapped.isServer (seenOf s.conn) id) := by
  have hkind := reportEvent_kind s.conn.token s.conn.wrapped.isServer (seenOf s.conn) id
  have hlocal : (reportEvent s.conn.token s.conn.wrapped.isServer (seenOf s.conn) id).kind =
      .streamAccept → isLocal id s.conn.wrapped.isServer = false := by
    unfold reportEvent
    cases isLocal id s.conn.wrapped.isServer
    · exact fun _ ↦ rfl
    · intro h
      cases h
  generalize hevent : reportEvent s.conn.token s.conn.wrapped.isServer (seenOf s.conn) id = e at hkind hlocal
  have hfields : e.token = s.conn.token ∧ e.isServer = s.conn.wrapped.isServer ∧
      e.isError = false ∧ e.streamId = id := by
    rw [← hevent]
    exact ⟨rfl, rfl, rfl, rfl⟩
  obtain ⟨htoken, hserver, herror, hid⟩ := hfields
  have hne : e.kind ≠ .accept ∧ e.kind ≠ .connected := by
    rcases hkind with hkind | hkind <;> rw [hkind] <;> decide
  refine ⟨⟨htoken, hserver, ?_, fun _ ↦ .inr hkind, ?_, fun h ↦ absurd h hne.1,
    fun h ↦ absurd h hne.2⟩, fun h ↦ h.elim hne.1 hne.2⟩
  · rw [herror]
    exact fun h ↦ by cases h
  · rw [hid, hserver]
    exact hlocal

theorem reports_report (s : Ctx) (id : ℕ) : Reports s ((s.report id).handleReadable id) := by
  have hevolves := evolves_report s id
  refine reports_of _ hevolves.token hevolves.isServer ?_ hevolves.trace fun e he ↦ ?_
  · rw [handleReadable_eq]
    rfl
  · obtain rfl := List.mem_singleton.mp he
    exact of_reportEvent s id

theorem reports_readableLoop (n : ℕ) (s : Ctx) : Reports s (Ctx.readableLoop n s) := by
  induction n generalizing s with
  | zero => exact .refl s
  | succ n ih =>
    have hcall := reports_call s .streamReadableNext
    unfold Ctx.readableLoop
    rcases hs : s.call .streamReadableNext with ⟨_ | id, t⟩
    · rwa [hs] at hcall
    · rw [hs] at hcall
      exact (hcall.trans (reports_report t id)).trans (ih _)

theorem writableLoop_established (n : ℕ) (s : Ctx) :
    (Ctx.writableLoop n s).conn.established = s.conn.established := by
  induction n generalizing s with
  | zero => rfl
  | succ n ih =>
    unfold Ctx.writableLoop
    cases ha : (s.conn.wrapped.call .streamWritableNext).1 with
    | none => simp [Ctx.call, ha]
    | some id => simp [Ctx.call, ha, ih, Ctx.insert]

theorem readableLoop_established (n : ℕ) (s : Ctx) :
    (Ctx.readableLoop n s).conn.established = s.conn.established := by
  induction n generalizing s with
  | zero => rfl
  | succ n ih =>
    unfold Ctx.readableLoop
    cases ha : (s.conn.wrapped.call .streamReadableNext).1 with
    | none => simp [Ctx.call, ha]
    | some id => simp [Ctx.call, ha, ih, handleReadable_eq, setSeen, Ctx.insert, Ctx.report]

theorem reports_handleSend (s : Ctx) (sendDone : Bool) (now : Instant) :
    Reports s (s.handleSend sendDone now) := by
  have hsend := of_plainEvent s .send false (by simp) (by decide)
  unfold Ctx.handleSend
  dsimp only
  split
  · exact reports_of [.remove _] rfl rfl rfl rfl fun e he ↦ by cases he
  · exact reports_insert s hsend.1 hsend.2

theorem handleEstablished_spec (s : Ctx) : Reports s s.handleEstablished ∧
    s.handleEstablished.conn.wrapped = s.conn.wrapped ∧
    s.handleEstablished.conn.established = (s.conn.established || s.conn.wrapped.isEstablished) := by
  cases hflag : s.conn.established
  · cases hquiche : s.conn.wrapped.isEstablished
    · have heq : s.handleEstablished = s := by
        simp only [Ctx.handleEstablished, hflag, hquiche, Bool.not_false, Bool.and_false,
          Bool.false_eq_true, if_false]
      rw [heq]
      exact ⟨.refl s, rfl, by simp [hflag]⟩
    · have heq : s.handleEstablished = Ctx.insert { s with conn.established := true }
          (greeting s.conn.token s.conn.wrapped.isServer) none := by
        simp only [Ctx.handleEstablished, hflag, hquiche, Bool.not_false, Bool.and_true, if_true]
        cases hserver : s.conn.wrapped.isServer <;> simp [greeting, Ctx.event, hserver]
      rw [heq]
      refine ⟨⟨rfl, rfl, fun _ ↦ rfl, [.insert (greeting s.conn.token s.conn.wrapped.isServer) none],
        rfl, fun e he ↦ ?_, ?_⟩, rfl, by simp [Ctx.insert]⟩
      · obtain rfl := List.mem_singleton.mp he
        refine ⟨rfl, rfl, fun h ↦ (by cases h), fun h ↦ absurd rfl h, ?_, ?_, ?_⟩
        · cases s.conn.wrapped.isServer <;> exact fun h ↦ by cases h
        · cases s.conn.wrapped.isServer <;> exact fun h ↦ by cases h <;> rfl
        · cases s.conn.wrapped.isServer <;> exact fun h ↦ by cases h <;> rfl
      · rw [hflag]
        cases s.conn.wrapped.isServer <;> rfl
  · have heq : s.handleEstablished = s := by
      simp only [Ctx.handleEstablished, hflag, Bool.not_true, Bool.false_and, Bool.false_eq_true,
        if_false]
    rw [heq]
    exact ⟨.refl s, rfl, by simp [hflag]⟩

theorem handleStateChanged_spec (s : Ctx) : Reports s s.handleStateChanged.2 ∧
    s.handleStateChanged.2.conn.established =
      (s.conn.established || s.handleStateChanged.2.conn.wrapped.isEstablished) := by
  obtain ⟨hreports, hwrapped, hestablished⟩ := handleEstablished_spec s
  unfold Ctx.handleStateChanged
  cases hclosed : s.handleEstablished.conn.wrapped.isClosed
  · simp only [Bool.false_eq_true, if_false, hclosed]
    exact ⟨hreports, by rw [hestablished, hwrapped]⟩
  · simp only [if_true, hclosed]
    have hclosedEvent := of_plainEvent s.handleEstablished .closed false (by simp) (by decide)
    refine ⟨hreports.trans (reports_insert _ hclosedEvent.1 hclosedEvent.2), ?_⟩
    simp only [Ctx.insert]
    rw [hestablished, hwrapped]

theorem unlock_reports {n : ℕ} {sendDone closed : Bool} {env : UnlockEnv}
    (h : s.unlock n sendDone env = .ok (closed, t)) : Reports s t ∧
      t.conn.established = (s.conn.established || t.conn.wrapped.isEstablished) := by
  obtain ⟨m, b, k, u, hu, hevolves, hrest⟩ := unlock_parts h
  have hrelock : Reports s { s with conn := relock s.conn m b k } :=
    reports_of_trace_eq rfl rfl rfl rfl
  have hretry := hrelock.trans (reports_handleRetryEvents hu hevolves)
  have hstreams := (reports_writableLoop u.rounds u).trans
    (reports_readableLoop (Ctx.writableLoop u.rounds u).rounds _)
  have hsend := reports_handleSend u.handleStreamStateChanged sendDone env.now
  obtain ⟨hstate, hestablished⟩ :=
    handleStateChanged_spec (u.handleStreamStateChanged.handleSend sendDone env.now)
  rw [hrest] at hstate hestablished
  refine ⟨hretry.trans (hstreams.trans (hsend.trans hstate)), ?_⟩
  rw [hestablished, handleSend_established, Ctx.handleStreamStateChanged, readableLoop_established,
    writableLoop_established, handleRetryEvents_established hu]
  rfl

theorem streamOpenPrv_established (s : Ctx) (kind : StreamKind) :
    (s.streamOpenPrv kind).2.conn.established = s.conn.established := by
  unfold Ctx.streamOpenPrv
  by_cases hleft : s.conn.wrapped.peerStreamsLeft kind = 0
  · simp only [hleft, if_true]
  · have htake : (s.takeStreamId kind).2.conn.established = s.conn.established := by
      cases kind <;> rfl
    simp only [hleft, if_false]
    generalize s.takeStreamId kind = p at htake ⊢
    obtain ⟨id, t⟩ := p
    cases ha : (t.conn.wrapped.call (.streamPriority id 255 true)).1 with
    | error err => simpa [Ctx.call, ha] using htake
    | ok u => simpa [Ctx.call, ha] using htake

theorem reports_tryLockPrv {kind : LocKind} {r : Except Error LockContext} {c : QuicConn}
    (h : s.conn.tryLockPrv kind = .ok (r, c)) : Reports s { s with conn := c } := by
  rcases tryLockPrv_cases h with ⟨_, n, b, k, -, rfl⟩ | ⟨-, rfl⟩
  · exact reports_of_trace_eq rfl rfl rfl rfl
  · exact reports_refuse s kind

theorem reports_tryLock {kind : LocKind} {r : Except Error Guard}
    (h : Group.tryLock kind s = .ok (r, t)) : Reports s t := by
  obtain ⟨⟨r', c⟩, hlock, h⟩ := bind_ok h
  cases h
  exact reports_tryLockPrv hlock

theorem elementary_reports : Elementary Reports where
  trans := .trans
  lock _ hlock := reports_tryLockPrv hlock
  calls _ := reports_of_trace_eq rfl rfl rfl rfl
  opens s kind := by
    obtain ⟨hevolves, -⟩ := evolves_streamOpenPrv s kind
    exact reports_of_trace_eq hevolves.token hevolves.isServer (streamOpenPrv_established s kind)
      (hevolves.trace.trans (List.append_nil _))
  later _ _ := reports_of_trace_eq rfl rfl rfl rfl
  unlock h := (unlock_reports h).1

end Contexts

section Groups

variable {g g' g'' : Group} {news news' : List Happening} {token : Token} {c c' : QuicConn}

def greetingsOf (token : Token) (news : List Happening) : List Event :=
  (greetings (insertedBy (observations news))).filter fun e ↦ e.token = token

/-- The connection goes on, and tells that it is established as it takes note of it. -/
structure Lives (token : Token) (news : List Happening) (c c' : QuicConn) : Prop where
  token_eq : c'.token = c.token
  isServer_eq : c'.wrapped.isServer = c.wrapped.isServer
  established : c.established = true → c'.established = true
  greets : greetingsOf token news =
    greets token c.wrapped.isServer c.established c'.established

/-- What happens in a group from which no connection is taken. -/
structure Follows (g g' : Group) (news : List Happening) : Prop where
  named : Named g'
  history : g'.state.history = g.state.history ++ news
  heard : ∀ e ∈ insertedBy (observations news), ∃ c,
    g'.state.conns.lookup e.token = some c ∧ Of e.token c.wrapped.isServer e
  lives : ∀ token c, g.state.conns.lookup token = some c →
    ∃ c', g'.state.conns.lookup token = some c' ∧ Lives token news c c'

theorem greetingsOf_append (token : Token) (xs ys : List Happening) :
    greetingsOf token (xs ++ ys) = greetingsOf token xs ++ greetingsOf token ys := by
  unfold greetingsOf
  rw [observations_append, insertedBy_append, greetings_append, List.filter_append]

theorem lives_refl (token : Token) (c : QuicConn) : Lives token [] c c :=
  ⟨rfl, rfl, id, by cases hflag : c.established <;> simp [greetingsOf, observations, insertedBy,
    greetings, greets]⟩

theorem Lives.trans {c'' : QuicConn} (h : Lives token news c c') (h' : Lives token news' c' c'') :
    Lives token (news ++ news') c c'' := by
  refine ⟨h'.token_eq.trans h.token_eq, h'.isServer_eq.trans h.isServer_eq,
    h'.established ∘ h.established, ?_⟩
  rw [greetingsOf_append, h.greets, h'.greets, h.isServer_eq]
  exact greets_trans h.established h'.established

theorem follows_of_eq (h : Named g) (hconns : g'.state.conns = g.state.conns)
    (hhistory : g'.state.history = g.state.history) : Follows g g' [] := by
  refine ⟨fun t c hc ↦ h t c (hconns ▸ hc), by rw [hhistory, List.append_nil], ?_, ?_⟩
  · intro e he
    cases he
  · intro t c hc
    exact ⟨c, by rw [hconns]; exact hc, lives_refl t c⟩

theorem Follows.trans (h : Follows g g' news) (h' : Follows g' g'' news') :
    Follows g g'' (news ++ news') := by
  refine ⟨h'.named, by rw [h'.history, h.history, List.append_assoc], ?_, ?_⟩
  · intro e he
    rw [observations_append, insertedBy_append] at he
    rcases List.mem_append.mp he with he | he
    · obtain ⟨c, hc, hof⟩ := h.heard e he
      obtain ⟨c', hc', hlives⟩ := h'.lives _ c hc
      exact ⟨c', hc', by rw [hlives.isServer_eq]; exact hof⟩
    · exact h'.heard e he
  · intro t c hc
    obtain ⟨c', hc', hlives⟩ := h.lives t c hc
    obtain ⟨c'', hc'', hlives'⟩ := h'.lives t c' hc'
    exact ⟨c'', hc'', hlives.trans hlives'⟩

theorem greetingsOf_reports {events : List Event} {isServer : Bool}
    (h : ∀ e ∈ events, Of token isServer e) (t : Token) :
    (greetings events).filter (fun e ↦ e.token = t) = if t = token then greetings events else [] := by
  split
  next ht =>
    apply List.filter_eq_self.mpr
    intro e he
    simpa [ht] using (h e (List.mem_filter.mp he).1).token
  next ht =>
    apply List.filter_eq_nil_iff.mpr
    intro e he
    have htoken := (h e (List.mem_filter.mp he).1).token
    simpa [htoken] using Ne.symm ht

theorem follows_put (hnamed : Named g) (st : State) (before : List Happening) {r : Readiness}
    {s : Ctx} (hconns : st.conns = g.state.conns)
    (hhistory : st.history = g.state.history ++ before) (hbefore : observations before = [])
    (htoken : c.token = token) (hreports : Reports ⟨c, r, []⟩ s)
    (hc : ∀ d, g.state.conns.lookup token = some d → d = c) (scids : HashMap ConnectionId Token) :
    Follows g ⟨st.put token s, scids⟩ (before ++ s.trace.map .observed) ∧
      Lives token (before ++ s.trace.map .observed) c s.conn := by
  obtain ⟨obs, htrace, hof, hgreets⟩ := hreports.obs
  obtain rfl : s.trace = obs := htrace
  rw [htoken] at hof hgreets
  have hobserved : observations (before ++ s.trace.map .observed) = s.trace := by
    rw [observations_append, hbefore, observations_map, List.nil_append]
  have hgreetings : ∀ t, greetingsOf t (before ++ s.trace.map .observed) =
      if t = token then greetings (insertedBy s.trace) else [] := by
    intro t
    rw [greetingsOf, hobserved]
    exact greetingsOf_reports hof t
  have hlookup : (st.put token s).conns.lookup token = some s.conn := AList.lookup_insert _
  have hother : ∀ t, t ≠ token → (st.put token s).conns.lookup t = g.state.conns.lookup t := by
    intro t ht
    rw [← hconns]
    exact AList.lookup_insert_ne ht
  have hlives : Lives token (before ++ s.trace.map .observed) c s.conn :=
    ⟨hreports.token, hreports.isServer, hreports.established, by rw [hgreetings, if_pos rfl, hgreets]⟩
  refine ⟨⟨?_, ?_, ?_, ?_⟩, hlives⟩
  · intro t d hd
    by_cases ht : t = token
    · subst ht
      rw [hlookup] at hd
      cases hd
      exact hreports.token.trans htoken
    · rw [hother t ht] at hd
      exact hnamed t d hd
  · rw [show (st.put token s).history = st.history ++ s.trace.map .observed from rfl, hhistory,
      List.append_assoc]
  · intro e he
    rw [hobserved] at he
    obtain ⟨het, hserver, hproper⟩ := hof e he
    refine ⟨s.conn, by rw [het]; exact hlookup, rfl, ?_, hproper⟩
    rw [hserver, hreports.isServer]
  · intro t d hd
    by_cases ht : t = token
    · subst ht
      obtain rfl := hc d hd
      exact ⟨s.conn, hlookup, hlives⟩
    · refine ⟨d, by rw [hother t ht]; exact hd, rfl, rfl, id, ?_⟩
      rw [hgreetings, if_neg ht]
      cases d.established <;> rfl

def Voices (g g' : Group) : Prop := Named g → ∃ news, Follows g g' news

theorem voices_of_eq (hconns : g'.state.conns = g.state.conns)
    (hhistory : g'.state.history = g.state.history) : Voices g g' :=
  fun h ↦ ⟨[], follows_of_eq h hconns hhistory⟩

theorem carries_voices : Carries Reports Voices where
  refl _ := voices_of_eq rfl rfl
  trans h h' hnamed := by
    obtain ⟨news, hfollows⟩ := h hnamed
    obtain ⟨news', hfollows'⟩ := h' hfollows.named
    exact ⟨news ++ news', hfollows.trans hfollows'⟩
  unparked _ _ := voices_of_eq rfl rfl
  put := by
    intro g token c s hc hs hnamed
    have hfollows := follows_put hnamed g.state [] rfl (List.append_nil _).symm rfl
      (hnamed token c hc) hs
      (fun d hd ↦ by rw [hc] at hd; cases hd; rfl) g.scids
    exact ⟨_, hfollows.1⟩

theorem settle_reports {s t : Ctx} {env : UnlockEnv} (h : Group.settle s env = .ok (.ok (), t)) :
    Reports s t ∧ t.conn.established = (s.conn.established || t.conn.wrapped.isEstablished) := by
  obtain ⟨⟨guard, u⟩, htry, h⟩ := bind_ok h
  obtain ⟨⟨r, c⟩, hlock, htry⟩ := bind_ok htry
  cases htry
  rcases tryLockPrv_cases hlock with ⟨context, n, b, k, rfl, rfl⟩ | ⟨rfl, rfl⟩
  · obtain ⟨⟨closed, u⟩, hunlock, h⟩ := bind_ok h
    cases h
    obtain ⟨hreports, hestablished⟩ := unlock_reports hunlock
    have hlocked : Reports s { s with conn := relock s.conn n b k } :=
      reports_of_trace_eq rfl rfl rfl rfl
    exact ⟨hlocked.trans hreports, hestablished⟩
  · cases h

theorem register_reports {q : Connection} {env : UnlockEnv}
    (h : Group.register q env g = .ok (.ok token) g') :
    ∃ tokenNext s, g.state.conns.lookup token = none ∧ Reports (g.state.ctx (.new token q)) s ∧
      s.conn.established = (q.isEstablished || s.conn.wrapped.isEstablished) ∧
      g' = ⟨State.put { g.state with
        tokenNext, history := g.state.history ++ [Happening.registered token] } token s,
        g.scids.insert q.sourceId token⟩ := by
  unfold Group.register at h
  split at h
  · cases h
  next fresh st hfree =>
    obtain ⟨hnone, tokenNext, rfl⟩ := freeToken_spec hfree
    dsimp only at h
    split at h
    · cases h
    · split at h
      · cases h
      · cases h
      next s hsettle =>
        cases h
        obtain ⟨hreports, hestablished⟩ := settle_reports hsettle
        exact ⟨tokenNext, s, hnone, hreports, hestablished, rfl⟩

theorem follows_register (hnamed : Named g) {q : Connection} {env : UnlockEnv}
    (h : Group.register q env g = .ok (.ok token) g') :
    ∃ news c', Follows g g' (.registered token :: news) ∧ g'.state.conns.lookup token = some c' ∧
      c'.established = (q.isEstablished || c'.wrapped.isEstablished) ∧
      greetingsOf token news = greets token q.isServer q.isEstablished c'.established := by
  obtain ⟨tokenNext, s, hnone, hreports, hestablished, rfl⟩ := register_reports h
  have hnew : ∀ d, g.state.conns.lookup token = some d → d = .new token q := by
    intro d hd
    rw [hnone] at hd
    cases hd
  obtain ⟨hfollows, hlives⟩ := follows_put hnamed { g.state with
      tokenNext, history := g.state.history ++ [Happening.registered token] } [.registered token]
    (c := .new token q) rfl rfl rfl rfl hreports hnew (g.scids.insert q.sourceId token)
  exact ⟨s.trace.map .observed, s.conn, hfollows, AList.lookup_insert _, hestablished, hlives.greets⟩

theorem voices_register (q : Connection) (env : UnlockEnv) (g : Group) :
    Voices g (leftBy (Group.register q env g)) := by
  have hcases := register_cases g q env
  cases hr : Group.register q env g with
  | error panic g' =>
    rw [hr] at hcases
    cases hcases with
    | hangs => exact voices_of_eq rfl rfl
    | taken token tokenNext hnone hscid => exact voices_of_eq rfl rfl
  | ok r g' =>
    rw [hr] at hcases
    cases r with
    | error err => cases hcases
    | ok token =>
      intro hnamed
      obtain ⟨news, -, hfollows, -⟩ := follows_register hnamed hr
      exact ⟨_, hfollows⟩

theorem voices_poll (env : PollEnv) (g : Group) : Voices g (leftBy (Group.poll [] env g)) := by
  unfold Group.poll
  split
  · exact voices_of_eq rfl rfl
  next out deadline readiness hpoll =>
    intro hnamed
    have hnone : observations (out.map .delivered) = [] := observations_delivered out
    refine ⟨out.map .delivered, hnamed, rfl, fun e he ↦ ?_, fun t c hc ↦ ⟨c, hc, ?_⟩⟩
    · rw [hnone] at he
      cases he
    · refine ⟨rfl, rfl, id, ?_⟩
      rw [greetingsOf, hnone]
      cases c.established <;> rfl

theorem named_takeConn (hnamed : Named g) (token : Token) :
    Named (leftBy (Group.takeConn token g)) ∧
      (leftBy (Group.takeConn token g)).state.history = g.state.history ∧
      ∀ t, t ≠ token → (leftBy (Group.takeConn token g)).state.conns.lookup t =
        g.state.conns.lookup t := by
  unfold Group.takeConn
  split
  · exact ⟨hnamed, rfl, fun _ _ ↦ rfl⟩
  · refine ⟨fun t c hc ↦ ?_, rfl, fun t ht ↦ AList.lookup_erase_ne ht⟩
    by_cases ht : t = token
    · rw [ht, show (leftBy _).state.conns.lookup token = none from AList.lookup_erase _ _] at hc
      cases hc
    · exact hnamed t c ((AList.lookup_erase_ne ht).symm.trans hc)

end Groups

section Worlds

variable {v w : World} {token : Token} {c : QuicConn}

theorem takes_or_voices (w : World) (a : Action) :
    (∃ token, takes w a = some token ∧
      (w.next a).group = leftBy (Group.takeConn token w.group)) ∨
    Voices w.group (w.next a).group := by
  have hperforms := performs_next w a
  generalize (w.next a).group = g at hperforms ⊢
  cases hperforms with
  | takeConn token htakes => exact .inl ⟨token, htakes, rfl⟩
  | rests => exact .inr (voices_of_eq rfl rfl)
  | register q env => exact .inr (voices_register q env _)
  | lock token kind =>
    exact .inr (carries_voices.operation (fun _ _ _ h ↦ reports_tryLock h) token _)
  | lockRecv token unparker =>
    exact .inr (carries_voices.lockRecv (fun _ _ _ h ↦ reports_tryLock h) token unparker _)
  | call guard c => exact .inr (carries_voices.derefMut (fun s ↦ reports_call s c) guard _)
  | unlock guard sendDone env =>
    exact .inr (carries_voices.unlockConn (fun _ _ _ h ↦ (unlock_reports h).1) _)
  | takeScid token q =>
    apply Or.inr
    unfold Group.takeScid
    dsimp only
    split <;> exact voices_of_eq rfl rfl
  | close token app err reason env =>
    exact .inr (carries_voices.operation
      (fun _ _ _ h ↦ elementary_reports.steady.close h) token _)
  | streamOpen token kind nonBlocking env =>
    exact .inr (carries_voices.operation (fun _ _ _ h ↦ elementary_reports.streamOpen h) token _)
  | streamShutdown token streamId err env =>
    exact .inr (carries_voices.operation
      (fun _ _ _ h ↦ elementary_reports.steady.streamClose h) token _)
  | poll env => exact .inr (voices_poll env _)

theorem next_heard (hnamed : Named w.group) (a : Action) : Named (w.next a).group ∧
    ∃ news, (w.next a).group.state.history = w.group.state.history ++ news ∧
      ∀ e ∈ insertedBy (observations news), ∃ c,
        (w.next a).group.state.conns.lookup e.token = some c ∧ Of e.token c.wrapped.isServer e := by
  rcases takes_or_voices w a with ⟨token, -, hgroup⟩ | hvoices
  · obtain ⟨hnamed', hhistory, -⟩ := named_takeConn hnamed token
    rw [hgroup]
    exact ⟨hnamed', [], by rw [hhistory, List.append_nil], fun e he ↦ by cases he⟩
  · obtain ⟨news, hfollows⟩ := hvoices hnamed
    exact ⟨hfollows.named, news, hfollows.history, hfollows.heard⟩

theorem named_of_run (h : Run step Legal .initial w) : Named w.group ∧
    ∀ e ∈ insertedBy (observations w.group.state.history), Proper e := by
  refine h.invariant (P := fun w ↦ Named w.group ∧
    ∀ e ∈ insertedBy (observations w.group.state.history), Proper e) ⟨?_, ?_⟩ ?_
  · intro t c hc
    cases hc
  · intro e he
    cases he
  · intro w w' a hw _ hstep
    cases hstep
    obtain ⟨hnamed, news, hhistory, hheard⟩ := next_heard hw.1 a
    refine ⟨hnamed, fun e he ↦ ?_⟩
    rw [hhistory, observations_append, insertedBy_append] at he
    rcases List.mem_append.mp he with he | he
    · exact hw.2 e he
    · obtain ⟨c, -, hof⟩ := hheard e he
      exact hof.proper

/-- However the threads of a group take turns, every event that is handed out has the fields
that its kind asks for. Every event that a step inserts bears the token and the role of a
connection that is in the group. -/
theorem events_well_formed (h : Run step Legal .initial w) :
    (∀ e ∈ deliveredIn w.group.state.history, Proper e) ∧
    ∀ a, ∃ news, (w.next a).group.state.history = w.group.state.history ++ news ∧
      ∀ e ∈ insertedBy (observations news), Proper e ∧ ∃ c,
        (w.next a).group.state.conns.lookup e.token = some c ∧
        e.isServer = c.wrapped.isServer := by
  obtain ⟨hnamed, hproper⟩ := named_of_run h
  refine ⟨fun e he ↦ hproper e ((booked_of_run h).inserted he), fun a ↦ ?_⟩
  obtain ⟨-, news, hhistory, hheard⟩ := next_heard hnamed a
  refine ⟨news, hhistory, fun e he ↦ ?_⟩
  obtain ⟨c, hc, hof⟩ := hheard e he
  exact ⟨hof.proper, c, hc, hof.isServer⟩

theorem events_well_formed_example :
    ∃ w, Run step Legal .initial w ∧
      ⟨⟨0⟩, .streamAccept, true, false, 0⟩ ∈ deliveredIn w.group.state.history ∧
      Proper ⟨⟨0⟩, .streamAccept, true, false, 0⟩ := by
  have hconnect : Run step Legal .initial _ :=
    .one (i := .connect (Script.connection ⟨true, [7], [0], [], none⟩) .still)
      trivial rfl
  have hpoll := hconnect.tail (i := .poll ⟨0, HashSet.listed, Peek.first⟩) (by trivial) rfl
  have hmem : (⟨⟨0⟩, .streamAccept, true, false, 0⟩ : Event) ∈ deliveredIn (World.next (World.next
      .initial (.connect (Script.connection ⟨true, [7], [0], [], none⟩) .still))
      (.poll ⟨0, HashSet.listed, Peek.first⟩)).group.state.history := by
    decide
  exact ⟨_, hpoll, hmem, (events_well_formed hpoll).1 _ hmem⟩

theorem next_lives (hnamed : Named w.group) {a : Action} (ha : takes w a ≠ some token)
    (hc : w.group.state.conns.lookup token = some c) :
    ∃ c' news, (w.next a).group.state.conns.lookup token = some c' ∧
      (w.next a).group.state.history = w.group.state.history ++ news ∧ Lives token news c c' := by
  rcases takes_or_voices w a with ⟨other, htakes, hgroup⟩ | hvoices
  · have hne : token ≠ other := by
      rintro rfl
      exact ha htakes
    obtain ⟨-, hhistory, hlookup⟩ := named_takeConn hnamed other
    rw [hgroup, hhistory, hlookup token hne]
    exact ⟨c, [], hc, (List.append_nil _).symm, lives_refl token c⟩
  · obtain ⟨news, hfollows⟩ := hvoices hnamed
    obtain ⟨c', hc', hlives⟩ := hfollows.lives token c hc
    exact ⟨c', news, hc', hfollows.history, hlives⟩

theorem run_lives (hnamed : Named v.group) (hc : v.group.state.conns.lookup token = some c)
    (h : Run step (fun w a ↦ Legal w a ∧ takes w a ≠ some token) v w) :
    ∃ c' news, w.group.state.conns.lookup token = some c' ∧
      w.group.state.history = v.group.state.history ++ news ∧ Lives token news c c' := by
  have hall : Named w.group ∧ ∃ c' news, w.group.state.conns.lookup token = some c' ∧
      w.group.state.history = v.group.state.history ++ news ∧ Lives token news c c' := by
    refine h.invariant (P := fun w ↦ Named w.group ∧ ∃ c' news,
      w.group.state.conns.lookup token = some c' ∧
      w.group.state.history = v.group.state.history ++ news ∧ Lives token news c c') ?_ ?_
    · exact ⟨hnamed, c, [], hc, (List.append_nil _).symm, lives_refl token c⟩
    · intro w w' a hw ha hstep
      cases hstep
      obtain ⟨hnamed', c', news, hc', hhistory, hlives⟩ := hw
      obtain ⟨c'', news', hc'', hhistory', hlives'⟩ := next_lives hnamed' ha.2 hc'
      refine ⟨(next_heard hnamed' a).1, c'', news ++ news', hc'', ?_, hlives.trans hlives'⟩
      rw [hhistory', hhistory, List.append_assoc]
  exact hall.2

end Worlds

end ZeroRtt.Poll.Reporting
