import Mathlib.Data.Nat.Bitwise
import ZeroRtt.Lib.Counters
import ZeroRtt.Poll.Chronicle

namespace ZeroRtt.Poll.Opening

open ZeroRtt.Lib.Panics ZeroRtt.Lib.Containers ZeroRtt.Lib.Runs ZeroRtt.Lib.Counters
open ZeroRtt.Api.Types ZeroRtt.Api.Quiche ZeroRtt.Poll.Schedule ZeroRtt.Poll.Conn
open ZeroRtt.Poll.Evolution ZeroRtt.Poll.Retries ZeroRtt.Poll.Unlock ZeroRtt.Poll.Locking
open ZeroRtt.Poll.Sections ZeroRtt.Poll.Walks ZeroRtt.Poll.Interleaving ZeroRtt.Poll.Chronicle
open ZeroRtt.Poll.LockProtocol hiding Action Machine step

section Ids

/-- The id that the first stream of a kind gets. -/
def firstStreamId (isServer : Bool) : StreamKind → ℕ
  | .bidi => if isServer then 0x01 else 0x0
  | .uni => if isServer then 0x03 else 0x02

theorem nextStreamId_new (token : Token) (q : Connection) (kind : StreamKind) :
    nextStreamId (.new token q) kind = firstStreamId q.isServer kind := by
  cases kind <;> rfl

theorem isLocal_eq (id : ℕ) (isServer : Bool) :
    isLocal id isServer = decide (id % 2 = isServer.toNat) := by
  rw [isLocal, Nat.and_one_is_mod]
  rfl

theorem isBidi_eq (id : ℕ) : isBidi id = decide (id / 2 % 2 = 0) := by
  have hand : id &&& 2 = (id.testBit 1).toNat * 2 := Nat.and_two_pow id 1
  rw [isBidi, hand, Nat.testBit_eq_decide_div_mod_eq, pow_one]
  by_cases hbit : id / 2 % 2 = 1
  · simp [hbit]
  · have hzero : id / 2 % 2 = 0 := by omega
    simp [hzero]

theorem isLocal_of_mod {id : ℕ} {isServer : Bool} {kind : StreamKind}
    (h : id % 4 = firstStreamId isServer kind % 4) :
    isLocal id isServer = true ∧ StreamKind.ofId id = kind := by
  rw [isLocal_eq, StreamKind.ofId, isBidi_eq]
  cases kind <;> cases isServer <;> simp [firstStreamId] at h ⊢ <;> omega

end Ids

section Contexts

variable {s t u : Ctx}

structure Stays (c c' : QuicConn) : Prop where
  isServer : c'.wrapped.isServer = c.wrapped.isServer
  ids : nextStreamId c' = nextStreamId c

theorem Stays.trans {c c' c'' : QuicConn} (h : Stays c c') (h' : Stays c' c'') : Stays c c'' :=
  ⟨h'.isServer.trans h.isServer, h'.ids.trans h.ids⟩

theorem nextStreamId_congr {c c' : QuicConn} (hbidi : c'.localStreamBidiNext = c.localStreamBidiNext)
    (huni : c'.localStreamUniNext = c.localStreamUniNext) : nextStreamId c' = nextStreamId c := by
  funext kind
  cases kind with
  | uni => exact huni
  | bidi => exact hbidi

theorem writableLoop_ids (n : ℕ) (s : Ctx) :
    nextStreamId (Ctx.writableLoop n s).conn = nextStreamId s.conn := by
  induction n generalizing s with
  | zero => rfl
  | succ n ih =>
    unfold Ctx.writableLoop
    have hcall : nextStreamId (s.call .streamWritableNext).2.conn = nextStreamId s.conn := rfl
    rcases hs : s.call .streamWritableNext with ⟨_ | id, t⟩
    · rwa [hs] at hcall
    · rw [hs] at hcall
      exact (ih _).trans hcall

theorem readableLoop_ids (n : ℕ) (s : Ctx) :
    nextStreamId (Ctx.readableLoop n s).conn = nextStreamId s.conn := by
  induction n generalizing s with
  | zero => rfl
  | succ n ih =>
    unfold Ctx.readableLoop
    have hcall : nextStreamId (s.call .streamReadableNext).2.conn = nextStreamId s.conn := rfl
    rcases hs : s.call .streamReadableNext with ⟨_ | id, t⟩
    · rwa [hs] at hcall
    · rw [hs] at hcall
      dsimp only
      rw [ih, handleReadable_eq]
      exact hcall

theorem handleSend_ids (s : Ctx) (sendDone : Bool) (now : Instant) :
    nextStreamId (s.handleSend sendDone now).conn = nextStreamId s.conn := by
  unfold Ctx.handleSend
  dsimp only
  split <;> rfl

theorem handleStateChanged_ids (s : Ctx) :
    nextStreamId s.handleStateChanged.2.conn = nextStreamId s.conn := by
  have hestablished : nextStreamId s.handleEstablished.conn = nextStreamId s.conn := by
    unfold Ctx.handleEstablished
    cases !s.conn.established && s.conn.wrapped.isEstablished
    · rfl
    · dsimp only
      cases s.conn.wrapped.isServer <;> rfl
  unfold Ctx.handleStateChanged
  dsimp only
  cases s.handleEstablished.conn.wrapped.isClosed <;> exact hestablished

theorem unlock_ids {n : ℕ} {sendDone closed : Bool} {env : UnlockEnv}
    (h : s.unlock n sendDone env = .ok (closed, t)) : nextStreamId t.conn = nextStreamId s.conn := by
  obtain ⟨m, b, k, u, hu, -, hrest⟩ := unlock_parts h
  have hretried : nextStreamId u.conn = nextStreamId s.conn := by
    rw [handleRetryEvents_conn hu]
    rfl
  obtain rfl := congrArg Prod.snd hrest
  rw [handleStateChanged_ids, handleSend_ids, Ctx.handleStreamStateChanged, readableLoop_ids,
    writableLoop_ids, hretried]

theorem stays_unlock {n : ℕ} {sendDone closed : Bool} {env : UnlockEnv}
    (h : s.unlock n sendDone env = .ok (closed, t)) : Stays s.conn t.conn := by
  obtain ⟨m, b, k, log, hspec⟩ := unlocked_of_ok h
  obtain ⟨nexts, streams, established, hevolves, -, -⟩ := hspec.evolves
  exact ⟨hevolves.isServer, unlock_ids h⟩

theorem stays_tryLockPrv {kind : LocKind} {r : Except Error LockContext} {c c' : QuicConn}
    (h : c.tryLockPrv kind = .ok (r, c')) : Stays c c' := by
  rcases tryLockPrv_cases h with ⟨_, n, b, k, -, rfl⟩ | ⟨-, rfl⟩
  · exact ⟨rfl, rfl⟩
  · unfold QuicConn.refuse
    split <;> exact ⟨rfl, rfl⟩

theorem steady_stays : Steady fun s t ↦ Stays s.conn t.conn where
  trans := .trans
  lock _ hlock := stays_tryLockPrv hlock
  calls _ := ⟨rfl, rfl⟩
  unlock := stays_unlock

end Contexts

section Opens

variable {s t : Ctx} {c c' : QuicConn} {kind : StreamKind}

/-- Among the operations that wait there is none that `handle_retry_events` has no arm for. -/
def Retriable (c : QuicConn) : Prop := ∀ k ∈ c.reties, k ≠ .none

def creation (c : QuicConn) (kind : StreamKind) : Except QuicheError Unit :=
  (c.wrapped.call (.streamPriority (nextStreamId c kind) 255 true)).1

structure Advances (kind : StreamKind) (c c' : QuicConn) : Prop where
  isServer : c'.wrapped.isServer = c.wrapped.isServer
  next : nextStreamId c' kind = nextStreamId c kind + 4
  other : ∀ kind', kind' ≠ kind → nextStreamId c' kind' = nextStreamId c kind'

theorem Stays.advances {c'' : QuicConn} (h : Stays c c') (h' : Advances kind c' c'') :
    Advances kind c c'' where
  isServer := h'.isServer.trans h.isServer
  next := by rw [h'.next, h.ids]
  other kind' hne := by rw [h'.other kind' hne, h.ids]

theorem Advances.stays {c'' : QuicConn} (h : Advances kind c c') (h' : Stays c' c'') :
    Advances kind c c'' where
  isServer := h'.isServer.trans h.isServer
  next := by rw [h'.ids, h.next]
  other kind' hne := by rw [h'.ids, h.other kind' hne]

inductive Opens (c : QuicConn) (kind : StreamKind) : Except Error (Option ℕ) → QuicConn → Prop
  | busy {c' : QuicConn} : c.locker ≠ .none → Stays c c' → Opens c kind (.error .busy) c'
  | waits {r : Except Error (Option ℕ)} {c' : QuicConn} : c.locker = .none →
      c.wrapped.peerStreamsLeft kind = 0 → r = .ok none ∨ r = .error .retry → Stays c c' →
      Opens c kind r c'
  | fails {err : QuicheError} {c' : QuicConn} : c.locker = .none →
      c.wrapped.peerStreamsLeft kind ≠ 0 → creation c kind = .error err → Advances kind c c' →
      Opens c kind (.error (.quiche err)) c'
  | opens {c' : QuicConn} : c.locker = .none → c.wrapped.peerStreamsLeft kind ≠ 0 →
      creation c kind = .ok () → Advances kind c c' →
      Opens c kind (.ok (some (nextStreamId c kind))) c'

theorem unlock_opening {n : ℕ} (hlocker : s.conn.locker = .streamOpen kind)
    (hcount : s.conn.lockCount = n) (hreties : Retriable s.conn) (env : UnlockEnv) :
    ∃ closed t, s.unlock n false env = .ok (closed, t) ∧ Stays s.conn t.conn := by
  have hrelease : s.conn.release n =
      .ok { s.conn with lockCount := s.conn.lockCount + 1, locker := .none } := by
    simp [QuicConn.release, assert, hlocker, hcount]
  obtain ⟨closed, t, log, hunlock, -⟩ := unlock_spec s false env hrelease hreties
  exact ⟨closed, t, hunlock, stays_unlock hunlock⟩

theorem advances_takeStreamId (s : Ctx) (kind : StreamKind) :
    Advances kind s.conn (s.takeStreamId kind).2.conn := by
  cases kind with
  | uni =>
    refine ⟨rfl, rfl, fun kind' hne ↦ ?_⟩
    cases kind' with
    | uni => exact absurd rfl hne
    | bidi => rfl
  | bidi =>
    refine ⟨rfl, rfl, fun kind' hne ↦ ?_⟩
    cases kind' with
    | uni => rfl
    | bidi => exact absurd rfl hne

theorem streamOpenPrv_waits (h : s.conn.wrapped.peerStreamsLeft kind = 0) :
    s.streamOpenPrv kind = (.error .retry, s) := by
  simp only [Ctx.streamOpenPrv, h, if_true]

def asked (s : Ctx) (kind : StreamKind) : Ctx :=
  afterCalls (s.takeStreamId kind).2 [.streamPriority (nextStreamId s.conn kind) 255 true]

theorem advances_asked (s : Ctx) (kind : StreamKind) : Advances kind s.conn (asked s kind).conn :=
  (advances_takeStreamId s kind).stays ⟨rfl, rfl⟩

theorem streamOpenPrv_asks (h : s.conn.wrapped.peerStreamsLeft kind ≠ 0) :
    s.streamOpenPrv kind = (match creation s.conn kind with
      | .error err => .error (.quiche err)
      | .ok _ => .ok (nextStreamId s.conn kind), asked s kind) := by
  cases kind with
  | uni =>
    cases hcreation : creation s.conn .uni <;>
      simp only [creation, nextStreamId] at hcreation <;>
      simp only [Ctx.streamOpenPrv, h, if_false, Ctx.takeStreamId, Ctx.call, hcreation] <;>
      rfl
  | bidi =>
    cases hcreation : creation s.conn .bidi <;>
      simp only [creation, nextStreamId] at hcreation <;>
      simp only [Ctx.streamOpenPrv, h, if_false, Ctx.takeStreamId, Ctx.call, hcreation] <;>
      rfl

def lockedFor (s : Ctx) (kind : StreamKind) : Ctx := { s with conn.locker := .streamOpen kind }

theorem stays_lockedFor (s : Ctx) (kind : StreamKind) : Stays s.conn (lockedFor s kind).conn :=
  ⟨rfl, rfl⟩

theorem stays_retryLater (s : Ctx) (k : LocKind) : Stays s.conn (s.retryLater k).conn := ⟨rfl, rfl⟩

theorem streamOpen_waits (hfree : s.conn.locker = .none)
    (hleft : s.conn.wrapped.peerStreamsLeft kind = 0) (hreties : Retriable s.conn)
    (nonBlocking : Bool) (env : UnlockEnv) :
    ∃ t, s.streamOpen kind nonBlocking env =
        .ok (if nonBlocking then .ok none else .error .retry, t) ∧ Stays s.conn t.conn := by
  have hlater : Retriable ((lockedFor s kind).retryLater (.streamOpen kind)).conn := by
    intro k hk
    rcases HashSet.mem_insert.mp hk with rfl | hk
    · simp
    · exact hreties k hk
  obtain ⟨closed, t, hunlock, hstays⟩ := unlock_opening (n := s.conn.lockCount)
    (s := (lockedFor s kind).retryLater (.streamOpen kind)) rfl rfl hlater env
  have hlocked := (stays_lockedFor s kind).trans (stays_retryLater _ (.streamOpen kind))
  refine ⟨t, ?_, hlocked.trans hstays⟩
  have hwaits := streamOpenPrv_waits (s := lockedFor s kind) hleft
  unfold lockedFor at hwaits hunlock
  simp only [Ctx.streamOpen, tryLockPrv_free hfree (.streamOpen kind) (by simp), ok_bind, hwaits]
  rw [show s.conn.context.lockCount = s.conn.lockCount from rfl, hunlock]
  rfl

theorem streamOpen_asks (hfree : s.conn.locker = .none)
    (hleft : s.conn.wrapped.peerStreamsLeft kind ≠ 0) (hreties : Retriable s.conn)
    (nonBlocking : Bool) (env : UnlockEnv) :
    ∃ t, s.streamOpen kind nonBlocking env = .ok (match creation s.conn kind with
        | .error err => .error (.quiche err)
        | .ok _ => .ok (some (nextStreamId s.conn kind)), t) ∧ Advances kind s.conn t.conn := by
  have hasked := (evolves_streamOpenPrv (lockedFor s kind) kind)
  have hasks := streamOpenPrv_asks (s := lockedFor s kind) hleft
  rw [hasks] at hasked
  obtain ⟨hevolves, hkept⟩ := hasked
  have hretriable : Retriable (asked (lockedFor s kind) kind).conn := by
    intro k hk
    exact hreties k (hkept ▸ hk)
  obtain ⟨closed, t, hunlock, hstays⟩ := unlock_opening (s := asked (lockedFor s kind) kind)
    hevolves.locker hevolves.lockCount hretriable env
  have hadvances := (advances_asked (lockedFor s kind) kind).stays hstays
  refine ⟨t, ?_, (stays_lockedFor s kind).advances hadvances⟩
  change (asked (lockedFor s kind) kind).unlock s.conn.context.lockCount false env = _ at hunlock
  rw [show creation s.conn kind = creation (lockedFor s kind).conn kind from rfl]
  rw [show nextStreamId s.conn = nextStreamId (lockedFor s kind).conn from rfl]
  unfold lockedFor at hasks hunlock ⊢
  cases hcreation : creation ({ s with conn.locker := .streamOpen kind } : Ctx).conn kind with
  | error err =>
    simp only [hcreation] at hasks
    simp only [Ctx.streamOpen, tryLockPrv_free hfree (.streamOpen kind) (by simp), ok_bind, hasks,
      hunlock]
    rfl
  | ok u =>
    simp only [hcreation] at hasks
    simp only [Ctx.streamOpen, tryLockPrv_free hfree (.streamOpen kind) (by simp), ok_bind, hasks,
      hunlock]
    rfl

theorem streamOpen_opens (hreties : Retriable s.conn) (kind : StreamKind) (nonBlocking : Bool)
    (env : UnlockEnv) :
    ∃ r t, s.streamOpen kind nonBlocking env = .ok (r, t) ∧ Opens s.conn kind r t.conn := by
  by_cases hfree : s.conn.locker = .none
  · by_cases hleft : s.conn.wrapped.peerStreamsLeft kind = 0
    · obtain ⟨t, hrun, hstays⟩ := streamOpen_waits hfree hleft hreties nonBlocking env
      refine ⟨_, t, hrun, .waits hfree hleft ?_ hstays⟩
      cases nonBlocking <;> simp
    · obtain ⟨t, hrun, hadvances⟩ := streamOpen_asks hfree hleft hreties nonBlocking env
      refine ⟨_, t, hrun, ?_⟩
      cases hcreation : creation s.conn kind with
      | error err => exact .fails hfree hleft hcreation hadvances
      | ok u => exact .opens hfree hleft hcreation hadvances
  · have hg : ¬ Grants s.conn (.streamOpen kind) := by
      rintro (hnone | ⟨-, hread⟩)
      · exact hfree hnone
      · cases hread
    refine ⟨_, _, streamOpen_refuses nonBlocking env hg, .busy hfree ?_⟩
    exact stays_tryLockPrv (tryLockPrv_refuses hg)

end Opens

section Groups

variable {s t u : Ctx} {g g' : Group} {token : Token}

def RemoteObs : Obs → Prop
  | .insert e _ => e.kind = .streamAccept → isLocal e.streamId e.isServer = false
  | _ => True

theorem remoteObs_of_announces {isServer : Bool} {seen seen' : Seen} {obs : List Obs}
    (h : Announces token isServer seen obs seen') : ∀ o ∈ obs, RemoteObs o := by
  induction h with
  | nil => simp
  | @report seen _ _ id _ ih =>
    intro o ho
    simp only [List.mem_cons] at ho
    rcases ho with rfl | rfl | ho
    · trivial
    · intro hkind
      cases hlocal : isLocal id isServer with
      | false => exact hlocal
      | true => simp [reportEvent, hlocal] at hkind
    · exact ih o ho
  | insert e d hne _ ih =>
    intro o ho
    rcases List.mem_cons.mp ho with rfl | ho
    · exact fun hkind ↦ absurd hkind hne
    · exact ih o ho
  | remove e _ ih =>
    intro o ho
    rcases List.mem_cons.mp ho with rfl | ho
    · trivial
    · exact ih o ho

abbrev Tidies : Ctx → Ctx → Prop := Heeds Retriable RemoteObs

theorem tidies_of_evolves {calls : List Call} {obs : List Obs} (h : Evolves s t calls obs)
    (hreties : Retriable s.conn → Retriable t.conn) : Tidies s t :=
  ⟨hreties, fun _ ↦ ⟨obs, h.trace, remoteObs_of_announces h.announces⟩⟩

theorem tidies_tryLockPrv {kind : LocKind} {r : Except Error LockContext} {c : QuicConn}
    (h : s.conn.tryLockPrv kind = .ok (r, c)) : Tidies s { s with conn := c } := by
  refine heeds_of_trace_eq ?_ rfl
  rcases tryLockPrv_cases h with ⟨_, n, b, k, -, rfl⟩ | ⟨-, rfl⟩
  · exact id
  · intro hs k hk
    rcases (refuse_reties s.conn kind k).mp hk with hk | ⟨rfl, hneed⟩
    · exact hs k hk
    · rintro rfl
      cases hneed

theorem tidies_tryLock {kind : LocKind} {r : Except Error Guard}
    (h : Group.tryLock kind s = .ok (r, t)) : Tidies s t := by
  obtain ⟨⟨r', c⟩, hlock, h⟩ := bind_ok h
  cases h
  exact tidies_tryLockPrv hlock

theorem retriable_unlocked {sendDone closed : Bool} {env : UnlockEnv} {log : List Handled}
    (h : Unlocked s sendDone env closed t log) : Retriable t.conn := by
  intro k hk
  obtain ⟨_, -, -, hwaits⟩ := (h.reties k).mp hk
  obtain ⟨kind, rfl, -⟩ := waits_streamOpen hwaits
  simp

theorem tidies_unlocked {sendDone closed : Bool} {env : UnlockEnv} {log : List Handled}
    (h : Unlocked s sendDone env closed t log) : Tidies s t := by
  obtain ⟨nexts, streams, established, hevolves, -, -⟩ := h.evolves
  exact tidies_of_evolves hevolves fun _ ↦ retriable_unlocked h

theorem tidies_unlock {n : ℕ} {sendDone closed : Bool} {env : UnlockEnv}
    (h : s.unlock n sendDone env = .ok (closed, t)) : Tidies s t := by
  obtain ⟨m, b, k, log, hspec⟩ := unlocked_of_ok h
  have hrelock : Tidies s { s with conn := relock s.conn m b k } := heeds_of_trace_eq id rfl
  exact hrelock.trans (tidies_unlocked hspec)

theorem elementary_tidies : Elementary Tidies where
  trans := .trans
  lock _ hlock := tidies_tryLockPrv hlock
  calls _ := tidies_of_evolves (evolves_afterCalls _ _) id
  opens s kind := by
    obtain ⟨hevolves, hreties⟩ := evolves_streamOpenPrv s kind
    exact tidies_of_evolves hevolves fun hs k hk ↦ hs k (hreties ▸ hk)
  later s kind := by
    refine tidies_of_evolves (evolves_retryLater s _) fun hs k hk ↦ ?_
    rcases HashSet.mem_insert.mp hk with rfl | hk
    · simp
    · exact hs k hk
  unlock := tidies_unlock

abbrev Tidy : Group → Prop := Abides Retriable RemoteObs

theorem tidy_register (q : Connection) (env : UnlockEnv) (g : Group) (h : Tidy g) :
    Tidy (leftBy (Group.register q env g)) := by
  refine abides_register q env ?_ h
  intro token s n b k closed log hunlocked
  have htidies := tidies_unlocked hunlocked
  have hnew : Retriable (g.state.ctx (relock (.new token q) n b k)).conn := fun k hk ↦
    absurd hk (HashSet.not_mem_empty k)
  obtain ⟨obs, htrace, hobs⟩ := htidies.trace hnew
  exact ⟨htidies.conn hnew, htrace ▸ hobs⟩

theorem sectionwise_tidy : Sectionwise (fun _ ↦ True) fun g g' ↦ Tidy g → Tidy g' where
  refl _ := id
  register := tidy_register
  lock token _ g _ := carries_abides.operation (fun _ _ _ h ↦ tidies_tryLock h) token g
  lockRecv token unparker g :=
    carries_abides.lockRecv (fun _ _ _ h ↦ tidies_tryLock h) token unparker g
  call guard c g := carries_abides.derefMut
    (fun s ↦ tidies_of_evolves (evolves_call s c) id) guard g
  unlock _ _ g := carries_abides.unlockConn (fun _ _ _ h ↦ tidies_unlock h) g
  takeConn := abides_takeConn
  takeScid := abides_takeScid
  close token _ _ _ _ g :=
    carries_abides.operation (fun _ _ _ h ↦ elementary_tidies.steady.close h) token g
  streamOpen token _ _ _ g :=
    carries_abides.operation (fun _ _ _ h ↦ elementary_tidies.streamOpen h) token g
  streamShutdown token _ _ _ g :=
    carries_abides.operation (fun _ _ _ h ↦ elementary_tidies.steady.streamClose h) token g

theorem Tidy.next {w : World} (h : Tidy w.group) (a : Action) : Tidy (w.next a).group := by
  by_cases hpoll : ∃ env, a = .poll env
  · obtain ⟨env, rfl⟩ := hpoll
    rw [World.next, run_group fun _ _ ↦ rfl]
    exact abides_poll env w.group h
  · push Not at hpoll
    exact sectionwise_tidy.next hpoll (fun _ _ _ ↦ trivial) h

end Groups

section Following

variable {g g' g'' : Group} {token : Token} {w : World}

/-- Whoever has the token after a step had it before, in the same role and with the same
counters. -/
def Keeps (token : Token) (g g' : Group) : Prop :=
  ∀ c', g'.state.conns.lookup token = some c' →
    ∃ c, g.state.conns.lookup token = some c ∧ Stays c c'

theorem keeps_of_conns (h : g'.state.conns = g.state.conns) : Keeps token g g' := by
  intro c hc
  exact ⟨c, h ▸ hc, rfl, rfl⟩

theorem Keeps.trans (h : Keeps token g g') (h' : Keeps token g' g'') : Keeps token g g'' := by
  intro c'' hc''
  obtain ⟨c', hc', hstays'⟩ := h' c'' hc''
  obtain ⟨c, hc, hstays⟩ := h c' hc'
  exact ⟨c, hc, hstays.trans hstays'⟩

theorem keeps_put_of_ne {t : Token} (h : token ≠ t) (s : Ctx) :
    Keeps token g { g with state := g.state.put t s } := by
  intro c hc
  refine ⟨c, ?_, rfl, rfl⟩
  rwa [show (g.state.put t s).conns.lookup token = g.state.conns.lookup token from
    AList.lookup_insert_ne h] at hc

theorem keeps_put {t : Token} {c : QuicConn} {s : Ctx} (hc : g.state.conns.lookup t = some c)
    (hs : Stays c s.conn) : Keeps token g { g with state := g.state.put t s } := by
  by_cases ht : token = t
  · subst ht
    intro c' hc'
    rw [show (g.state.put token s).conns.lookup token = some s.conn from AList.lookup_insert _] at hc'
    cases hc'
    exact ⟨c, hc, hs⟩
  · exact keeps_put_of_ne ht s

theorem carries_keeps (token : Token) :
    Carries (fun s t ↦ Stays s.conn t.conn) (Keeps token) where
  refl _ := keeps_of_conns rfl
  trans := .trans
  unparked _ _ := keeps_of_conns rfl
  put hc hs := keeps_put hc hs

def Fresh (token : Token) (g g' : Group) : Prop :=
  g.state.conns.lookup token = none ∧ ∃ c, g'.state.conns.lookup token = some c ∧
    nextStreamId c = firstStreamId c.wrapped.isServer

theorem stays_settle {s t : Ctx} {env : UnlockEnv} {r : Except Error Unit}
    (h : Group.settle s env = .ok (r, t)) : Stays s.conn t.conn := by
  obtain ⟨⟨guard, u⟩, hlock, h⟩ := bind_ok h
  obtain ⟨⟨guard', c⟩, hprv, hlock⟩ := bind_ok hlock
  cases hlock
  have hlocked := stays_tryLockPrv hprv
  cases guard' with
  | error err =>
    cases h
    exact hlocked
  | ok lock =>
    obtain ⟨⟨closed, v⟩, hunlock, h⟩ := bind_ok h
    cases h
    exact hlocked.trans (stays_unlock hunlock)

theorem register_follows (token : Token) (q : Connection) (env : UnlockEnv) (g : Group) :
    Keeps token g (leftBy (Group.register q env g)) ∨
      Fresh token g (leftBy (Group.register q env g)) := by
  unfold Group.register
  cases hfree : g.state.freeToken (2 ^ 32) with
  | none => exact .inl (keeps_of_conns rfl)
  | some r =>
    obtain ⟨t, st⟩ := r
    obtain ⟨hnone, tokenNext, rfl⟩ := freeToken_spec hfree
    dsimp only
    split
    · exact .inl (keeps_of_conns rfl)
    · split
      · exact .inl (keeps_of_conns rfl)
      · exact .inl (keeps_of_conns rfl)
      next s hsettle =>
        by_cases ht : token = t
        · subst ht
          have hstays := stays_settle hsettle
          refine .inr ⟨hnone, s.conn, AList.lookup_insert _, ?_⟩
          funext kind
          rw [hstays.ids, hstays.isServer]
          exact nextStreamId_new token q kind
        · exact .inl fun c hc ↦ ⟨c, (AList.lookup_insert_ne ht).symm.trans hc, rfl, rfl⟩

theorem keeps_takeConn (token t : Token) (g : Group) :
    Keeps token g (leftBy (Group.takeConn t g)) := by
  unfold Group.takeConn
  split
  · exact keeps_of_conns rfl
  · intro c hc
    by_cases ht : token = t
    · rw [ht, show (leftBy _).state.conns.lookup t = none from AList.lookup_erase _ _] at hc
      cases hc
    · exact ⟨c, (AList.lookup_erase_ne ht).symm.trans hc, rfl, rfl⟩

theorem keeps_streamOpen_of_ne {t : Token} (h : token ≠ t) (kind : StreamKind) (nonBlocking : Bool)
    (env : UnlockEnv) (g : Group) :
    Keeps token g (leftBy (Group.streamOpen t kind nonBlocking env g)) := by
  unfold Group.streamOpen
  rw [leftBy_bind fun a g ↦ rfl]
  unfold Group.onConn
  split
  · exact keeps_of_conns rfl
  · split
    · exact keeps_of_conns rfl
    · exact keeps_put_of_ne h _

theorem streamOpen_some {c : QuicConn} (h : Tidy g) (hc : g.state.conns.lookup token = some c)
    (kind : StreamKind) (nonBlocking : Bool) (env : UnlockEnv) :
    ∃ r s, Group.streamOpen token kind nonBlocking env g =
        .ok r { g with state := g.state.put token s } ∧ Opens c kind r s.conn := by
  obtain ⟨r, s, hrun, hopens⟩ :=
    streamOpen_opens (s := g.state.ctx c) (h.conns token c hc) kind nonBlocking env
  refine ⟨r, s, ?_, hopens⟩
  unfold Group.streamOpen
  rw [bind_of_ok (onConn_of_some hc hrun)]
  rfl

theorem next_follows {a : Action} (token : Token)
    (ha : ∀ kind nonBlocking env, a ≠ .streamOpen token kind nonBlocking env) :
    Keeps token w.group (w.next a).group ∨ Fresh token w.group (w.next a).group := by
  have hcarries := carries_keeps token
  have hacts := acts_next w a
  generalize (w.next a).group = g at hacts ⊢
  cases hacts with
  | rests => exact .inl (hcarries.refl _)
  | register q env => exact register_follows token q env _
  | lock t kind =>
    refine .inl (hcarries.operation (fun s r u h ↦ ?_) t _)
    obtain ⟨⟨r', c⟩, hlock, h⟩ := bind_ok h
    cases h
    exact stays_tryLockPrv hlock
  | lockRecv t unparker =>
    exact .inl (hcarries.lockRecv (fun _ _ _ h ↦ steady_stays.tryLock (by simp) h) t unparker _)
  | call guard c => exact .inl (hcarries.derefMut (fun _ ↦ ⟨rfl, rfl⟩) guard _)
  | unlock guard sendDone env => exact .inl (hcarries.unlockConn (fun _ _ _ h ↦ stays_unlock h) _)
  | takeConn t => exact .inl (keeps_takeConn token t _)
  | takeScid t q =>
    refine .inl (keeps_of_conns ?_)
    unfold Group.takeScid
    dsimp only
    split <;> rfl
  | close t app err reason env =>
    exact .inl (hcarries.operation (fun _ _ _ h ↦ steady_stays.close h) t _)
  | streamOpen t kind nonBlocking env =>
    have ht : token ≠ t := by
      rintro rfl
      exact ha kind nonBlocking env rfl
    exact .inl (keeps_streamOpen_of_ne ht kind nonBlocking env _)
  | streamShutdown t streamId err env =>
    exact .inl (hcarries.operation (fun _ _ _ h ↦ steady_stays.streamClose h) t _)
  | poll env =>
    refine .inl (keeps_of_conns ?_)
    unfold Group.poll
    split <;> rfl

end Following

/-- An id that `stream_open` has returned, with the number of streams that quiche had left
at that moment. -/
structure Opened where
  kind : StreamKind
  id : ℕ
  left : ℕ
deriving DecidableEq

def record (c : QuicConn) (kind : StreamKind) : Except Error (Option ℕ) → List Opened
  | .ok (some id) => [⟨kind, id, c.wrapped.peerStreamsLeft kind⟩]
  | _ => []

/-- A group, and what `stream_open` did for the connection that now has a certain token: the
ids it returned, and those of the streams that quiche created. -/
structure Machine where
  world : World
  opened : List Opened
  created : List (StreamKind × ℕ)

namespace Machine

def initial : Machine := ⟨.initial, [], []⟩

def returned (token : Token) (w : World) : Action → List Opened
  | .streamOpen t kind nonBlocking env =>
    match w.group.state.conns.lookup t, Group.streamOpen t kind nonBlocking env w.group with
    | some c, .ok r _ => if t = token then record c kind r else []
    | _, _ => []
  | _ => []

def creations (token : Token) (w : World) : Action → List (StreamKind × ℕ)
  | .streamOpen t kind _ _ =>
    match w.group.state.conns.lookup t with
    | some c =>
      if t = token ∧ c.locker = .none ∧ c.wrapped.peerStreamsLeft kind ≠ 0 ∧
          (creation c kind).isOk then
        [(kind, nextStreamId c kind)]
      else []
    | none => []
  | _ => []

/-- The lists are about one connection, and start anew with the next one. -/
def next (token : Token) (m : Machine) (a : Action) : Machine :=
  let world := m.world.next a
  match world.group.state.conns.lookup token with
  | some _ => ⟨world, m.opened ++ returned token m.world a, m.created ++ creations token m.world a⟩
  | none => ⟨world, [], []⟩

def step (token : Token) (m : Machine) (a : Action) : Rust Machine := .ok (m.next token a)

end Machine

section Running

variable {token : Token} {m m' : Machine} {c c' : QuicConn} {kind : StreamKind} {a : Action}

def Machine.lookup (m : Machine) (token : Token) : Option QuicConn :=
  m.world.group.state.conns.lookup token

inductive Moves (token : Token) (m : Machine) (a : Action) (m' : Machine) : Prop
  | gone : m'.lookup token = none → m'.opened = [] → m'.created = [] → Moves token m a m'
  | fresh (c : QuicConn) : m.lookup token = none → m'.lookup token = some c →
      nextStreamId c = firstStreamId c.wrapped.isServer →
      m'.opened = m.opened → m'.created = m.created → Moves token m a m'
  | stays (c c' : QuicConn) : m.lookup token = some c → m'.lookup token = some c' → Stays c c' →
      m'.opened = m.opened → m'.created = m.created → Moves token m a m'
  | skips (c c' : QuicConn) (kind : StreamKind) (nonBlocking : Bool) (env : UnlockEnv)
      (err : QuicheError) : a = .streamOpen token kind nonBlocking env →
      m.lookup token = some c → m'.lookup token = some c' → c.locker = .none →
      c.wrapped.peerStreamsLeft kind ≠ 0 → creation c kind = .error err → Advances kind c c' →
      m'.opened = m.opened → m'.created = m.created → Moves token m a m'
  | opens (c c' : QuicConn) (kind : StreamKind) :
      m.lookup token = some c → m'.lookup token = some c' →
      c.wrapped.peerStreamsLeft kind ≠ 0 → Advances kind c c' →
      m'.opened = m.opened ++ [⟨kind, nextStreamId c kind, c.wrapped.peerStreamsLeft kind⟩] →
      m'.created = m.created ++ [(kind, nextStreamId c kind)] → Moves token m a m'

theorem next_none (h : (m.world.next a).group.state.conns.lookup token = none) :
    m.next token a = ⟨m.world.next a, [], []⟩ := by
  simp only [Machine.next, h]

theorem next_some (h : (m.world.next a).group.state.conns.lookup token = some c) :
    m.next token a = ⟨m.world.next a, m.opened ++ Machine.returned token m.world a,
      m.created ++ Machine.creations token m.world a⟩ := by
  simp only [Machine.next, h]

theorem returned_quiet {w : World}
    (ha : ∀ kind nonBlocking env, a ≠ .streamOpen token kind nonBlocking env) :
    Machine.returned token w a = [] ∧ Machine.creations token w a = [] := by
  cases a with
  | streamOpen t kind nonBlocking env =>
    have ht : t ≠ token := by
      rintro rfl
      exact ha kind nonBlocking env rfl
    constructor
    · unfold Machine.returned
      dsimp only
      split <;> simp [ht]
    · unfold Machine.creations
      dsimp only
      split <;> simp [ht]
  | _ => exact ⟨rfl, rfl⟩

theorem moves_quiet (m : Machine)
    (ha : ∀ kind nonBlocking env, a ≠ .streamOpen token kind nonBlocking env) :
    Moves token m a (m.next token a) := by
  obtain ⟨hreturned, hcreations⟩ := returned_quiet (w := m.world) ha
  cases hc' : (m.world.next a).group.state.conns.lookup token with
  | none =>
    rw [next_none hc']
    exact .gone hc' rfl rfl
  | some c' =>
    rw [next_some hc', hreturned, hcreations, List.append_nil, List.append_nil]
    rcases next_follows (w := m.world) token ha with hkeeps | ⟨hnone, c, hc, hfirst⟩
    · obtain ⟨c, hc, hstays⟩ := hkeeps c' hc'
      exact .stays c c' hc hc' hstays rfl rfl
    · exact .fresh c hnone hc hfirst rfl rfl

theorem returned_eq {w : World} {nonBlocking : Bool} {env : UnlockEnv} {g : Group}
    {r : Except Error (Option ℕ)} (hc : w.group.state.conns.lookup token = some c)
    (hrun : Group.streamOpen token kind nonBlocking env w.group = .ok r g) :
    Machine.returned token w (.streamOpen token kind nonBlocking env) = record c kind r := by
  simp only [Machine.returned, hc, hrun, if_true]

theorem creations_eq {w : World} {nonBlocking : Bool} {env : UnlockEnv}
    (hc : w.group.state.conns.lookup token = some c) (kind : StreamKind) :
    Machine.creations token w (.streamOpen token kind nonBlocking env) =
      if c.locker = .none ∧ c.wrapped.peerStreamsLeft kind ≠ 0 ∧ (creation c kind).isOk then
        [(kind, nextStreamId c kind)]
      else [] := by
  simp only [Machine.creations, hc, true_and]

theorem next_streamOpen_group (token : Token) (w : World) (kind : StreamKind) (nonBlocking : Bool)
    (env : UnlockEnv) : (w.next (.streamOpen token kind nonBlocking env)).group =
      leftBy (Group.streamOpen token kind nonBlocking env w.group) := run_group fun _ _ ↦ rfl

theorem moves_streamOpen (h : Tidy m.world.group) (kind : StreamKind) (nonBlocking : Bool)
    (env : UnlockEnv) : Moves token m (.streamOpen token kind nonBlocking env)
      (m.next token (.streamOpen token kind nonBlocking env)) := by
  have hgroup := next_streamOpen_group token m.world kind nonBlocking env
  cases hc : m.lookup token with
  | none =>
    have hc' : (m.world.next (.streamOpen token kind nonBlocking env)).group.state.conns.lookup
        token = none := by
      rw [hgroup, streamOpen_of_none hc]
      exact hc
    rw [next_none hc']
    exact .gone hc' rfl rfl
  | some c =>
    obtain ⟨r, s, hrun, hopens⟩ := streamOpen_some h hc kind nonBlocking env
    have hc' : (m.world.next (.streamOpen token kind nonBlocking env)).group.state.conns.lookup
        token = some s.conn := by
      rw [hgroup, hrun]
      exact AList.lookup_insert _
    have hreturned := returned_eq hc hrun
    have hcreations := @creations_eq token c m.world nonBlocking env hc kind
    rw [next_some hc', hreturned, hcreations]
    generalize hr : s.conn = c' at hopens hc'
    cases hopens with
    | busy hlocked hstays =>
      refine .stays c c' hc hc' hstays (List.append_nil _) ?_
      rw [if_neg fun h ↦ hlocked h.1]
      exact List.append_nil _
    | waits hfree hleft hwaits hstays =>
      have hcreated : m.created ++ (if c.locker = .none ∧ c.wrapped.peerStreamsLeft kind ≠ 0 ∧
          (creation c kind).isOk then [(kind, nextStreamId c kind)] else []) = m.created := by
        rw [if_neg fun h ↦ h.2.1 hleft, List.append_nil]
      rcases hwaits with rfl | rfl
      · exact .stays c c' hc hc' hstays (List.append_nil _) hcreated
      · exact .stays c c' hc hc' hstays (List.append_nil _) hcreated
    | fails hfree hleft hcreation hadvances =>
      refine .skips c c' kind nonBlocking env _ rfl hc hc' hfree hleft hcreation hadvances
        (List.append_nil _) ?_
      have hfailed : (creation c kind).isOk ≠ true := by
        rw [hcreation]
        exact Bool.false_ne_true
      rw [if_neg fun h ↦ hfailed h.2.2]
      exact List.append_nil _
    | opens hfree hleft hcreation hadvances =>
      refine .opens c c' kind hc hc' hleft hadvances rfl ?_
      rw [if_pos ⟨hfree, hleft, by rw [hcreation]; rfl⟩]

theorem Tidy.moves (h : Tidy m.world.group) (token : Token) (a : Action) :
    Moves token m a (m.next token a) := by
  by_cases ha : ∃ kind nonBlocking env, a = .streamOpen token kind nonBlocking env
  · obtain ⟨kind, nonBlocking, env, rfl⟩ := ha
    exact moves_streamOpen h kind nonBlocking env
  · push Not at ha
    exact moves_quiet m ha

end Running

end ZeroRtt.Poll.Opening
