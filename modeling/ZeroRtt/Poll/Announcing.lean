import ZeroRtt.Poll.Chronicle
import ZeroRtt.Poll.Minding

namespace ZeroRtt.Poll.Announcing

open ZeroRtt.Lib.Panics ZeroRtt.Lib.Containers
open ZeroRtt.Api.Types ZeroRtt.Api.Quiche ZeroRtt.Poll.Schedule ZeroRtt.Poll.Conn
open ZeroRtt.Poll.Evolution ZeroRtt.Poll.Retries ZeroRtt.Poll.Unlock ZeroRtt.Poll.Locking
open ZeroRtt.Poll.RetryProtocol ZeroRtt.Poll.Sections ZeroRtt.Poll.Walks
open ZeroRtt.Poll.Interleaving ZeroRtt.Poll.Minding ZeroRtt.Poll.Chronicle

def Retried (k : LocKind) : Prop := k ≠ .none ∧ k ≠ .send ∧ k ≠ .readLock

def Decent (c : QuicConn) : Prop := ∀ k ∈ c.reties, Retried k

/-- Every operation that waits, and every event that ever was inserted, is of a kind that
somebody is told about. -/
structure Announces (g : Group) : Prop where
  reties : ∀ token c, g.state.conns.lookup token = some c → Decent c
  readiness : Plain g.state.readiness
  inserted : ∀ o ∈ observations g.state.history, PlainObs o

section Contexts

variable {s t u : Ctx}

theorem retried_of_needRetry {k : LocKind} (h : k.needRetry = true) (hk : k ≠ .readLock) :
    Retried k := by
  refine ⟨?_, ?_, hk⟩
  · rintro rfl
    cases h
  · rintro rfl
    cases h

structure Discreet (s t : Ctx) : Prop where
  reties : Decent s.conn → Decent t.conn
  trace : Decent s.conn → ∃ obs, t.trace = s.trace ++ obs ∧
    t.readiness = obs.foldl applyObs s.readiness ∧ ∀ o ∈ obs, PlainObs o

theorem Discreet.trans (h : Discreet s t) (h' : Discreet t u) : Discreet s u := by
  refine ⟨fun hs ↦ h'.reties (h.reties hs), fun hs ↦ ?_⟩
  obtain ⟨xs, htrace, hreadiness, hxs⟩ := h.trace hs
  obtain ⟨ys, htrace', hreadiness', hys⟩ := h'.trace (h.reties hs)
  refine ⟨xs ++ ys, ?_, ?_, ?_⟩
  · rw [htrace', htrace, List.append_assoc]
  · rw [hreadiness', hreadiness, List.foldl_append]
  · intro o ho
    exact (List.mem_append.mp ho).elim (hxs o) (hys o)

theorem Discreet.of_reties (h : Decent s.conn → Decent t.conn) (htrace : t.trace = s.trace)
    (hreadiness : t.readiness = s.readiness) : Discreet s t :=
  ⟨h, fun _ ↦ ⟨[], by rw [htrace, List.append_nil], hreadiness, by simp⟩⟩

theorem discreet_tryLockPrv {kind : LocKind} (hkind : kind ≠ .readLock)
    {r : Except Error LockContext} {c : QuicConn} (h : s.conn.tryLockPrv kind = .ok (r, c)) :
    Discreet s { s with conn := c } := by
  refine .of_reties ?_ rfl rfl
  rcases tryLockPrv_cases h with ⟨_, n, b, k, -, rfl⟩ | ⟨-, rfl⟩
  · exact id
  · intro hs k hk
    rcases (refuse_reties s.conn kind k).mp hk with hk | ⟨rfl, hneed⟩
    · exact hs k hk
    · exact retried_of_needRetry hneed hkind

theorem decent_unlocked {sendDone closed : Bool} {env : UnlockEnv} {log : List Handled}
    (h : Unlocked s sendDone env closed t log) : Decent t.conn := by
  intro k hk
  obtain ⟨_, -, -, hwaits⟩ := (h.reties k).mp hk
  obtain ⟨kind, rfl, -⟩ := waits_streamOpen hwaits
  simp [Retried]

theorem discreet_unlock {n : ℕ} {sendDone closed : Bool} {env : UnlockEnv}
    (h : s.unlock n sendDone env = .ok (closed, t)) : Discreet s t := by
  obtain ⟨m, b, k, log, hspec⟩ := unlocked_of_ok h
  refine ⟨fun _ ↦ decent_unlocked hspec, fun hs ↦ ?_⟩
  have hplain := plainObs_unlocked hspec fun hmem ↦ (hs .readLock hmem).2.2 rfl
  exact hplain

theorem elementary_discreet : Elementary Discreet where
  trans := .trans
  lock hkind hlock := discreet_tryLockPrv hkind hlock
  calls _ := .of_reties id rfl rfl
  opens s kind := by
    obtain ⟨hevolves, hreties⟩ := evolves_streamOpenPrv s kind
    refine .of_reties (fun hs k hk ↦ hs k (hreties ▸ hk)) ?_ hevolves.readiness
    rw [hevolves.trace, List.append_nil]
  later s kind := by
    refine .of_reties (fun hs k hk ↦ ?_) rfl rfl
    rcases HashSet.mem_insert.mp hk with rfl | hk
    · simp [Retried]
    · exact hs k hk
  unlock := discreet_unlock

end Contexts

section Groups

variable {α : Type} {g g' : Group} {token : Token}

theorem Announces.of_eq (h : Announces g) (hconns : g'.state.conns = g.state.conns)
    (hreadiness : g'.state.readiness = g.state.readiness)
    (hhistory : g'.state.history = g.state.history) : Announces g' :=
  ⟨by rw [hconns]; exact h.reties, by rw [hreadiness]; exact h.readiness,
    by rw [hhistory]; exact h.inserted⟩

theorem announces_iff :
    Announces g ↔ Abides Decent PlainObs g ∧ Plain g.state.readiness :=
  ⟨fun h ↦ ⟨⟨h.reties, h.inserted⟩, h.readiness⟩, fun h ↦ ⟨h.1.conns, h.2, h.1.observed⟩⟩

theorem Announces.put (h : Announces g) (st : State) {s : Ctx} (hconns : st.conns = g.state.conns)
    (hhistory : observations st.history = observations g.state.history) (hs : Decent s.conn)
    (htrace : s.readiness = s.trace.foldl applyObs g.state.readiness ∧ ∀ o ∈ s.trace, PlainObs o)
    (scids : HashMap ConnectionId Token) : Announces ⟨st.put token s, scids⟩ := by
  refine announces_iff.mpr
    ⟨(announces_iff.mp h).1.put st hconns hhistory hs htrace.2 token scids, ?_⟩
  rw [show (st.put token s).readiness = s.readiness from rfl, htrace.1]
  exact h.readiness.foldl htrace.2

def Keeps (g g' : Group) : Prop := Announces g → Announces g'

theorem carries_keeps : Carries Discreet Keeps where
  refl _ := id
  trans h h' := h' ∘ h
  unparked _ _ h := h.of_eq rfl rfl rfl
  put := by
    intro g token c s hc hs h
    have hdecent := h.reties token c hc
    obtain ⟨obs, htrace, hreadiness, hobs⟩ := hs.trace hdecent
    obtain rfl : s.trace = obs := htrace
    exact h.put g.state rfl rfl (hs.reties hdecent) ⟨hreadiness, hobs⟩ _

theorem keeps_lock (token : Token) {kind : LocKind} (hkind : kind ≠ .readLock) (g : Group) :
    Keeps g (leftBy (Group.lock token kind g)) :=
  carries_keeps.operation (fun _ _ _ h ↦ elementary_discreet.steady.tryLock hkind h) token g

theorem keeps_derefMut (guard : Guard) (c : Call) (g : Group) :
    Keeps g (leftBy (Group.derefMut guard c g)) :=
  carries_keeps.derefMut (fun _ ↦ .of_reties id rfl rfl) guard g

theorem keeps_unlockConn (ctx : LockContext) (env : UnlockEnv) (g : Group) :
    Keeps g (leftBy (Group.unlockConn ctx env g)) :=
  carries_keeps.unlockConn (fun _ _ _ h ↦ discreet_unlock h) g

theorem keeps_takeConn (token : Token) (g : Group) :
    Keeps g (leftBy (Group.takeConn token g)) := by
  intro h
  refine announces_iff.mpr ⟨abides_takeConn token g (announces_iff.mp h).1, ?_⟩
  unfold Group.takeConn
  split <;> exact h.readiness

theorem keeps_takeScid (token : Token) (q : Connection) (g : Group) :
    Keeps g (leftBy (Group.takeScid token q g)) := by
  intro h
  unfold Group.takeScid
  dsimp only
  split <;> exact h.of_eq rfl rfl rfl

theorem keeps_register (q : Connection) (env : UnlockEnv) (g : Group) :
    Keeps g (leftBy (Group.register q env g)) := by
  intro h
  have hcases := register_cases g q env
  generalize Group.register q env g = r at hcases ⊢
  cases hcases with
  | hangs => exact h
  | taken token tokenNext hnone hscid => exact h.of_eq rfl rfl rfl
  | @fresh token tokenNext n b k closed s log hnone hscid hunlocked hheld hcont =>
    obtain ⟨obs, htrace, hreadiness, hobs⟩ := plainObs_unlocked hunlocked List.not_mem_nil
    obtain rfl : s.trace = obs := htrace
    refine h.put { g.state with
      tokenNext, history := g.state.history ++ [Happening.registered token] } rfl ?_
      (decent_unlocked hunlocked) ⟨hreadiness, hobs⟩ _
    rw [observations_append]
    exact List.append_nil _

theorem keeps_poll (env : PollEnv) (g : Group) : Keeps g (leftBy (Group.poll [] env g)) := by
  intro h
  refine announces_iff.mpr ⟨abides_poll env g (announces_iff.mp h).1, ?_⟩
  unfold Group.poll
  split
  · exact h.readiness
  next out deadline readiness hpoll =>
    obtain ⟨more, -, -, hempty, hdelayed⟩ := Readiness.poll_spec hpoll h.readiness.delayed
    refine ⟨fun e he ↦ ?_, hdelayed⟩
    change e ∈ readiness.events at he
    rw [hempty] at he
    exact absurd he (HashSet.not_mem_empty e)

theorem sectionwise_keeps : Sectionwise (· ≠ .readLock) Keeps where
  refl _ := id
  register := keeps_register
  lock token kind g hkind := keeps_lock token hkind g
  lockRecv token unparker g :=
    carries_keeps.lockRecv (fun _ _ _ h ↦ elementary_discreet.steady.tryLock (by simp) h) token unparker g
  call := keeps_derefMut
  unlock := keeps_unlockConn
  takeConn := keeps_takeConn
  takeScid := keeps_takeScid
  close token _ _ _ _ g := carries_keeps.operation (fun _ _ _ h ↦ elementary_discreet.steady.close h) token g
  streamOpen token _ _ _ g :=
    carries_keeps.operation (fun _ _ _ h ↦ elementary_discreet.streamOpen h) token g
  streamShutdown token _ _ _ g :=
    carries_keeps.operation (fun _ _ _ h ↦ elementary_discreet.steady.streamClose h) token g

end Groups

section Sure

variable {α β : Type} {s : Ctx}

def Sure (x : Rust α) : Prop := ∀ m, x ≠ .error (.unreachable m)

theorem Sure.bind {x : Rust α} {f : α → Rust β} (hx : Sure x)
    (hf : ∀ a, x = .ok a → Sure (f a)) : Sure (x >>= f) := by
  intro m hm
  cases x with
  | error panic =>
    cases hm
    exact hx m rfl
  | ok a => exact hf a rfl m hm

theorem sure_ok (a : α) : Sure (.ok a) := fun _ h ↦ by cases h

theorem sure_assert (p : Prop) [Decidable p] : Sure (assert p) := by
  intro m hm
  unfold assert at hm
  split at hm <;> cases hm

theorem sure_checkedSub (a b : ℕ) : Sure (checkedSub a b) := by
  intro m hm
  unfold checkedSub at hm
  split at hm <;> cases hm

theorem sure_release (c : QuicConn) (n : ℕ) : Sure (c.release n) := by
  refine (sure_assert _).bind fun _ _ ↦ (sure_assert _).bind fun _ _ ↦ ?_
  split
  · refine (sure_checkedSub _ _).bind fun _ _ ↦ ?_
    dsimp only
    split <;> exact sure_ok _
  · exact sure_ok _

theorem sure_tryLockPrv (c : QuicConn) (kind : LocKind) : Sure (c.tryLockPrv kind) := by
  unfold QuicConn.tryLockPrv
  split
  · split
    · exact (sure_assert _).bind fun _ _ ↦ sure_ok _
    · exact sure_ok _
  · split
    · exact (sure_assert _).bind fun _ _ ↦ sure_ok _
    · exact sure_ok _
  · exact sure_ok _

/-- Among the operations that wait there is none that `handle_retry_events` has no arm for. -/
theorem sure_unlock (h : Decent s.conn) (n : ℕ) (sendDone : Bool) (env : UnlockEnv) :
    Sure (s.unlock n sendDone env) := by
  cases hrelease : s.conn.release n with
  | error panic =>
    intro m hm
    simp only [Ctx.unlock, hrelease, error_bind] at hm
    cases hm
    exact sure_release s.conn n m hrelease
  | ok c =>
    obtain ⟨m, b, k, rfl⟩ := release_cases hrelease
    obtain ⟨closed, t, log, hunlock, -⟩ :=
      unlock_spec s sendDone env hrelease fun k hk ↦ (h k hk).1
    rw [hunlock]
    exact sure_ok _

theorem sure_tryLock (s : Ctx) (kind : LocKind) : Sure (Group.tryLock kind s) :=
  (sure_tryLockPrv s.conn kind).bind fun _ _ ↦ sure_ok _

theorem sure_close (h : Decent s.conn) (app : Bool) (err : ℕ) (reason : Bytes) (env : UnlockEnv) :
    Sure (s.close app err reason env) := by
  refine (sure_tryLockPrv _ _).bind fun r hlock ↦ ?_
  obtain ⟨guard, c⟩ := r
  have hc : Decent c := (discreet_tryLockPrv (by simp) hlock).reties h
  dsimp only
  split
  · exact sure_ok _
  · exact sure_ok _
  · exact (sure_unlock hc _ _ _).bind fun _ _ ↦ sure_ok _

theorem sure_streamClose (h : Decent s.conn) (streamId err : ℕ) (env : UnlockEnv) :
    Sure (s.streamClose streamId err env) := by
  refine (sure_tryLockPrv _ _).bind fun r hlock ↦ ?_
  obtain ⟨guard, c⟩ := r
  have hc : Decent c := (discreet_tryLockPrv (by simp) hlock).reties h
  dsimp only
  split
  · exact sure_ok _
  · exact sure_ok _
  · have hclosed := (elementary_discreet.steady.streamClosePrv { s with conn := c } streamId err).reties hc
    exact (sure_unlock hclosed _ _ _).bind fun _ _ ↦ sure_ok _

theorem sure_streamOpen (h : Decent s.conn) (kind : StreamKind) (nonBlocking : Bool)
    (env : UnlockEnv) : Sure (s.streamOpen kind nonBlocking env) := by
  refine (sure_tryLockPrv _ _).bind fun r hlock ↦ ?_
  obtain ⟨guard, c⟩ := r
  have hc : Decent c := (discreet_tryLockPrv (by simp) hlock).reties h
  dsimp only
  split
  · exact sure_ok _
  · have hopened := (elementary_discreet.opens { s with conn := c } kind).reties hc
    split
    next u hu =>
      rw [hu] at hopened
      have hlater := (elementary_discreet.later u kind).reties hopened
      exact (sure_unlock hlater _ _ _).bind fun _ _ ↦ sure_ok _
    next u _ hu =>
      rw [hu] at hopened
      exact (sure_unlock hopened _ _ _).bind fun _ _ ↦ sure_ok _

end Sure

section Failures

variable {α β : Type} {g : Group}

def failureOf : EStateM.Result Panic Group α → Option Panic
  | .ok _ _ => none
  | .error panic _ => some panic

def failure (w : World) : Action → Option Panic
  | .connect conn env => failureOf (Group.register conn env w.group)
  | .lock token kind => failureOf (Group.lock token kind w.group)
  | .call guard c => failureOf (Group.derefMut guard c w.group)
  | .unlock guard sendDone env =>
    failureOf (Group.unlockConn { guard.lock with sendDone } env w.group)
  | .deregister token => failureOf (Group.takeConn token w.group)
  | .close token app err reason env => failureOf (Group.close token app err reason env w.group)
  | .streamOpen token kind nonBlocking env =>
    failureOf (Group.streamOpen token kind nonBlocking env w.group)
  | .streamShutdown token streamId err env =>
    failureOf (Group.streamShutdown token streamId err env w.group)
  | .poll env => failureOf (Group.poll [] env w.group)
  | .lookupScid dcid => failureOf (Group.lookupScid dcid w.group)
  | .resume i unparker accepted env =>
    match w.pending[i]?, accepted with
    | some (.takeConn token), _ => failureOf (Group.takeConn token w.group)
    | some (.takeScid token conn), _ => failureOf (Group.takeScid token conn w.group)
    | some (.lockRecv _ token), _ => failureOf (Group.lockRecv token unparker w.group)
    | some (.handshake _), some conn => failureOf (Group.register conn env w.group)
    | _, _ => none

def Reached (r : EStateM.Result Panic Group α) : Prop := ∀ m, failureOf r ≠ some (.unreachable m)

theorem reached_onConn {f : Ctx → Rust (α × Ctx)} {token : Token}
    (hf : ∀ c, g.state.conns.lookup token = some c → Sure (f (g.state.ctx c))) :
    Reached (Group.onConn token f g) := by
  intro m hm
  unfold Group.onConn at hm
  split at hm
  · cases hm
  next c hc =>
    split at hm
    next panic hrun =>
      cases hm
      exact hf c hc m hrun
    · cases hm

theorem Reached.map {x : Section α} {f : α → β} (h : Reached (x g)) :
    Reached ((do return f (← x) : Section β) g) := by
  intro m hm
  simp only [bind, EStateM.bind] at hm
  split at hm
  · cases hm
  next hx =>
    rw [hx] at h
    exact h m hm

theorem reached_register (q : Connection) (env : UnlockEnv) (g : Group) :
    Reached (Group.register q env g) := by
  have hcases := register_cases g q env
  generalize Group.register q env g = r at hcases
  intro m hm
  cases hcases <;> cases hm

theorem reached_derefMut (guard : Guard) (c : Call) (g : Group) :
    Reached (Group.derefMut guard c g) := by
  intro m hm
  unfold Group.derefMut at hm
  cases hderef : Group.deref guard g with
  | error panic g' =>
    simp only [bind, EStateM.bind, hderef] at hm
    unfold Group.deref at hderef
    split at hderef
    · cases hderef
      cases hm
    · split at hderef
      · cases hderef
      · cases hderef
        cases hm
  | ok q g' =>
    rw [bind_of_ok hderef] at hm
    have hcall : Reached (Group.onConn guard.lock.token (fun s ↦ .ok ((), (s.call c).2)) g') :=
      reached_onConn fun _ _ ↦ sure_ok _
    exact hcall.map m hm

theorem reached_poll (env : PollEnv) (g : Group) : Reached (Group.poll [] env g) := by
  obtain ⟨more, deadline, rest, hpoll, -⟩ :=
    Readiness.poll_eq g.state.readiness defaultReleaseTimerThreshold env
  intro m hm
  simp only [Group.poll, hpoll] at hm
  cases hm

theorem reached_takeScid (token : Token) (q : Connection) (g : Group) :
    Reached (Group.takeScid token q g) := by
  intro m hm
  unfold Group.takeScid at hm
  dsimp only at hm
  split at hm <;> cases hm

theorem reached_takeConn (token : Token) (g : Group) : Reached (Group.takeConn token g) := by
  intro m hm
  unfold Group.takeConn at hm
  split at hm <;> cases hm

theorem reached_lockRecv (token : Token) (unparker : Option Unparker) (g : Group) :
    Reached (Group.lockRecv token unparker g) := by
  have hlock : Reached (Group.onConn token (Group.tryLock .recv) g) :=
    reached_onConn fun c _ ↦ sure_tryLock _ _
  intro m hm
  unfold Group.lockRecv at hm
  split at hm
  next hrun =>
    rw [hrun] at hlock
    exact hlock m hm
  · cases hm
  · cases hm
  · split at hm <;> cases hm

theorem Announces.unlockConn (h : Announces g) (ctx : LockContext) (env : UnlockEnv) :
    Reached (Group.unlockConn ctx env g) := by
  have hunlock : Reached (Group.onConn ctx.token
      (fun s ↦ s.unlock ctx.lockCount ctx.sendDone env)
      { g with state.unparkers := g.state.unparkers.erase ctx.token }) :=
    reached_onConn fun c hc ↦ sure_unlock (h.reties ctx.token c hc) _ _ _
  intro m hm
  unfold Group.unlockConn at hm
  dsimp only at hm
  split at hm
  · cases hm
  · cases hm
  next hrun =>
    rw [hrun] at hunlock
    exact hunlock m hm

theorem Announces.failure_ne {w : World} (h : Announces w.group) (a : Action) (m : String) :
    failure w a ≠ some (.unreachable m) := by
  cases a with
  | connect conn env => exact reached_register conn env _ m
  | lock token kind => exact (reached_onConn fun c _ ↦ sure_tryLock _ _).map m
  | call guard c => exact reached_derefMut guard c _ m
  | unlock guard sendDone env => exact h.unlockConn _ env m
  | deregister token => exact reached_takeConn token _ m
  | close token app err reason env =>
    exact (reached_onConn fun c hc ↦ sure_close (h.reties token c hc) _ _ _ _).map m
  | streamOpen token kind nonBlocking env =>
    exact (reached_onConn fun c hc ↦ sure_streamOpen (h.reties token c hc) _ _ _).map m
  | streamShutdown token streamId err env =>
    exact (reached_onConn fun c hc ↦ sure_streamClose (h.reties token c hc) _ _ _).map m
  | poll env => exact reached_poll env w.group m
  | lookupScid dcid =>
    unfold failure Group.lookupScid
    dsimp only
    split <;> exact fun hm ↦ by cases hm
  | resume i unparker accepted env =>
    unfold failure
    dsimp only
    split
    · exact reached_takeConn _ _ m
    · exact reached_takeScid _ _ _ m
    · exact reached_lockRecv _ _ _ m
    · exact reached_register _ _ _ m
    · exact fun hm ↦ by cases hm

end Failures

end ZeroRtt.Poll.Announcing
