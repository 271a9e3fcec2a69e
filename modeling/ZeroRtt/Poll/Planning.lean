import ZeroRtt.Poll.Agenda
import ZeroRtt.Poll.Chronicle
import ZeroRtt.Poll.GuardLifetime

namespace ZeroRtt.Poll.Planning

open ZeroRtt.Lib.Panics ZeroRtt.Lib.Containers ZeroRtt.Lib.Interface
open ZeroRtt.Api.Types ZeroRtt.Api.Quiche ZeroRtt.Poll.Schedule ZeroRtt.Poll.Conn
open ZeroRtt.Poll.Evolution ZeroRtt.Poll.Retries ZeroRtt.Poll.Unlock ZeroRtt.Poll.Locking
open ZeroRtt.Poll.Sections ZeroRtt.Poll.Walks ZeroRtt.Poll.Agenda ZeroRtt.Poll.Chronicle
open ZeroRtt.Poll.Interleaving
open ZeroRtt.Poll.GuardLifetime (Guarded guardsOf mem_guardsOf)

def sendOf (c : QuicConn) : Event := ⟨c.token, .send, c.wrapped.isServer, false, 0⟩

def plan (q : Connection) (sendDone : Bool) (now : Instant) : Option Due :=
  if sendDone && (delaySend q now sendDone).isNone then none
  else some (request (delaySend q now sendDone))

/-- The next packet of the connection is scheduled as an unlock asked for, and quiche was not
called since. -/
def Planned (r : Readiness) (c : QuicConn) : Prop :=
  ∃ sendDone now, agenda r (sendOf c) = plan c.wrapped sendDone now

section Contexts

variable {s t u : Ctx} {e : Event} {r : Readiness}

def Silent (e : Event) : Obs → Prop
  | .readable _ => True
  | .insert f _ => f ≠ e
  | .remove f => f ≠ e

theorem agenda_silent {obs : List Obs} (h : ∀ o ∈ obs, Silent e o) :
    agenda (obs.foldl applyObs r) e = agenda r e := by
  induction obs generalizing r with
  | nil => rfl
  | cons o obs ih =>
    rw [List.foldl_cons, ih fun o ho ↦ h o (List.mem_cons_of_mem _ ho)]
    have ho := h o List.mem_cons_self
    cases o with
    | readable id => rfl
    | insert f d =>
      change agenda (r.insert f d) e = agenda r e
      rw [agenda_insert, Function.update_of_ne (Ne.symm ho)]
    | remove f =>
      change agenda (r.remove f) e = agenda r e
      rw [agenda_remove, Function.update_of_ne (Ne.symm ho)]

theorem silent_insertions {events : List Event} (he : e.kind = .send)
    (h : ∀ f ∈ events, f.kind ≠ .send) : ∀ o ∈ insertions events, Silent e o := by
  intro o ho
  obtain ⟨f, hf, rfl⟩ := List.mem_map.mp ho
  rintro rfl
  exact h f hf he

theorem silent_streamObs (he : e.kind = .send) {o : Obs} (ho : StreamObs o) : Silent e o := by
  cases o with
  | readable id => trivial
  | insert f d =>
    rintro rfl
    rcases ho.2 with h | h | h <;> cases he.symm.trans h
  | remove f => exact ho.elim

theorem agenda_sendObs (r : Readiness) (event : EventKind → Bool → ℕ → Event) (q : Connection)
    (sendDone : Bool) (now : Instant) :
    agenda (applyObs r (sendObs event q sendDone now)) =
      Function.update (agenda r) (event .send false 0) (plan q sendDone now) := by
  unfold sendObs plan
  split
  · exact agenda_remove r _
  · exact agenda_insert r _ _

structure Frames (s t : Ctx) : Prop where
  event : sendOf t.conn = sendOf s.conn
  others : ∀ e, e.kind = .send → e ≠ sendOf s.conn → agenda t.readiness e = agenda s.readiness e

theorem Frames.token (h : Frames s t) : t.conn.token = s.conn.token := congrArg Event.token h.event

theorem Frames.trans (h : Frames s t) (h' : Frames t u) : Frames s u := by
  refine ⟨h'.event.trans h.event, fun e he hne ↦ ?_⟩
  rw [h'.others e he (by rwa [h.event]), h.others e he hne]

theorem frames_of_evolves {calls : List Call} {obs : List Obs} (h : Evolves s t calls obs)
    (hobs : ∀ e, e.kind = .send → e ≠ sendOf s.conn → ∀ o ∈ obs, Silent e o) : Frames s t := by
  refine ⟨?_, fun e he hne ↦ ?_⟩
  · rw [sendOf, h.token, h.isServer]
    rfl
  · rw [h.readiness, agenda_silent (hobs e he hne)]

theorem frames_quiet {calls : List Call} (h : Evolves s t calls []) : Frames s t :=
  frames_of_evolves h fun _ _ _ _ ho ↦ (by cases ho)

theorem unlocked_frames {sendDone closed : Bool} {env : UnlockEnv} {log : List Handled}
    (h : Unlocked s sendDone env closed t log) : Frames s t ∧ Planned t.readiness t.conn := by
  obtain ⟨nexts, streams, established, hevolves, -, hstreams⟩ := h.evolves
  have hstates : ∀ e, e.kind = .send →
      ∀ o ∈ insertions (stateEvents s.event established t.conn.wrapped), Silent e o := by
    intro e he
    apply silent_insertions he
    intro f hf
    obtain ⟨kind, hkind, rfl⟩ := stateEvents_kind hf
    rcases hkind with rfl | rfl | rfl <;> exact EventKind.noConfusion
  have hbefore : ∀ e, e.kind = .send →
      ∀ o ∈ insertions (logEvents s.event log) ++ streams, Silent e o := by
    intro e he o ho
    rcases List.mem_append.mp ho with ho | ho
    · refine silent_insertions he (fun f hf ↦ ?_) o ho
      obtain ⟨x, -, hf⟩ := List.mem_flatMap.mp hf
      exact fun hsend ↦ retryKind_ne_send x.kind (hsend ▸ retryEvents_kind hf)
    · exact silent_streamObs he (hstreams o ho)
  refine ⟨frames_of_evolves hevolves fun e he hne o ho ↦ ?_, sendDone, env.now, ?_⟩
  · rcases List.mem_append.mp ho with ho | ho
    · exact hbefore e he o ho
    · rcases List.mem_cons.mp ho with rfl | ho
      · unfold sendObs
        split <;> exact Ne.symm hne
      · exact hstates e he o ho
  · have hevent : sendOf t.conn = s.event .send false 0 := by
      rw [sendOf, hevolves.token, hevolves.isServer]
      rfl
    rw [hevolves.readiness, List.foldl_append, List.foldl_cons, agenda_silent (hstates _ rfl),
      agenda_sendObs, hevent, Function.update_self]

theorem unlock_frames {n : ℕ} {sendDone closed : Bool} {env : UnlockEnv}
    (h : s.unlock n sendDone env = .ok (closed, t)) :
    Frames s t ∧ Planned t.readiness t.conn := by
  obtain ⟨m, b, k, log, hspec⟩ := unlocked_of_ok h
  obtain ⟨hframes, hplanned⟩ := unlocked_frames hspec
  have hrelock : Frames s { s with conn := relock s.conn m b k } := ⟨rfl, fun _ _ _ ↦ rfl⟩
  exact ⟨hrelock.trans hframes, hplanned⟩

theorem refuse_eq (c : QuicConn) (kind : LocKind) : ∃ reties, c.refuse kind = { c with reties } := by
  unfold QuicConn.refuse
  split <;> exact ⟨_, rfl⟩

theorem elementary_frames : Elementary Frames where
  trans := .trans
  lock := by
    intro s kind r c _ hlock
    rcases tryLockPrv_cases hlock with ⟨context, n, b, k, -, rfl⟩ | ⟨-, rfl⟩
    · exact ⟨rfl, fun _ _ _ ↦ rfl⟩
    · obtain ⟨reties, hrefuse⟩ := refuse_eq s.conn kind
      rw [hrefuse]
      exact ⟨rfl, fun _ _ _ ↦ rfl⟩
  calls _ := frames_quiet (evolves_afterCalls _ _)
  opens s kind := frames_quiet (evolves_streamOpenPrv s kind).1
  later s _ := frames_quiet (evolves_retryLater s _)
  unlock h := (unlock_frames h).1

/-- A step after which the connection is locked, or its next packet is scheduled: by an unlock,
or as before with nothing done to the connection. -/
structure Plans (s t : Ctx) : Prop extends Frames s t where
  plan : t.conn.locker = .none → (s.conn.locker = .none ∧ t.conn.wrapped = s.conn.wrapped ∧
    t.readiness = s.readiness) ∨ Planned t.readiness t.conn

theorem plans_unlock {n : ℕ} {sendDone closed : Bool} {env : UnlockEnv}
    (h : s.unlock n sendDone env = .ok (closed, t)) : Plans s t :=
  ⟨(unlock_frames h).1, fun _ ↦ .inr (unlock_frames h).2⟩

theorem plans_of_unlock {n : ℕ} {sendDone closed : Bool} {env : UnlockEnv} (h : Frames s t)
    (hunlock : t.unlock n sendDone env = .ok (closed, u)) : Plans s u :=
  ⟨h.trans (unlock_frames hunlock).1, fun _ ↦ .inr (unlock_frames hunlock).2⟩

theorem free_of_tryLockPrv {c c' : QuicConn} {kind : LocKind} {r : Except Error LockContext}
    (h : c.tryLockPrv kind = .ok (r, c')) (hfree : c'.locker = .none) : c.locker = .none := by
  by_contra hlocked
  by_cases hg : Grants c kind
  · rcases hg with hl | ⟨hl, rfl⟩
    · exact hlocked hl
    · simp only [QuicConn.tryLockPrv, hl, if_true] at h
      obtain ⟨_, -, h⟩ := bind_ok h
      cases h
      cases hfree
  · rw [tryLockPrv_refuses hg] at h
    cases h
    obtain ⟨reties, hrefuse⟩ := refuse_eq c kind
    rw [hrefuse] at hfree
    exact hlocked hfree

theorem plans_tryLockPrv {kind : LocKind} {r : Except Error LockContext} {c : QuicConn}
    (h : s.conn.tryLockPrv kind = .ok (r, c)) : Plans s { s with conn := c } := by
  have hsame : sendOf c = sendOf s.conn ∧ c.wrapped = s.conn.wrapped := by
    rcases tryLockPrv_cases h with ⟨context, n, b, k, -, rfl⟩ | ⟨-, rfl⟩
    · exact ⟨rfl, rfl⟩
    · obtain ⟨reties, hrefuse⟩ := refuse_eq s.conn kind
      rw [hrefuse]
      exact ⟨rfl, rfl⟩
  exact ⟨⟨hsame.1, fun _ _ _ ↦ rfl⟩, fun hfree ↦ .inl ⟨free_of_tryLockPrv h hfree, hsame.2, rfl⟩⟩

theorem plans_tryLock {kind : LocKind} {r : Except Error Guard}
    (h : Group.tryLock kind s = .ok (r, t)) : Plans s t := by
  obtain ⟨⟨r', c⟩, hlock, h⟩ := bind_ok h
  cases h
  exact plans_tryLockPrv hlock

theorem plans_call (hlocked : s.conn.locker ≠ .none) (c : Call) : Plans s (s.call c).2 :=
  ⟨frames_quiet (evolves_call s c), fun hfree ↦ absurd hfree hlocked⟩

theorem plans_close {app : Bool} {err : ℕ} {reason : Bytes} {env : UnlockEnv}
    {r : Except Error Unit} (h : s.close app err reason env = .ok (r, t)) : Plans s t := by
  obtain ⟨⟨guard, c⟩, hlock, h⟩ := bind_ok h
  have hstart := plans_tryLockPrv hlock
  dsimp only at h
  split at h
  · cases h
    exact hstart
  · cases h
    exact hstart
  · obtain ⟨⟨closed, u⟩, hunlock, h⟩ := bind_ok h
    cases h
    exact plans_of_unlock (hstart.toFrames.trans (frames_quiet (evolves_call _ _))) hunlock

theorem plans_streamClose {id err : ℕ} {env : UnlockEnv} {r : Except Error Unit}
    (h : s.streamClose id err env = .ok (r, t)) : Plans s t := by
  obtain ⟨⟨guard, c⟩, hlock, h⟩ := bind_ok h
  have hstart := plans_tryLockPrv hlock
  dsimp only at h
  split at h
  · cases h
    exact hstart
  · cases h
    exact hstart
  · obtain ⟨⟨closed, u⟩, hunlock, h⟩ := bind_ok h
    cases h
    have hclose := elementary_frames.steady.streamClosePrv { s with conn := c } id err
    exact plans_of_unlock (hstart.toFrames.trans hclose) hunlock

theorem plans_streamOpen {kind : StreamKind} {nonBlocking : Bool} {env : UnlockEnv}
    {r : Except Error (Option ℕ)} (h : s.streamOpen kind nonBlocking env = .ok (r, t)) :
    Plans s t := by
  obtain ⟨⟨guard, c⟩, hlock, h⟩ := bind_ok h
  have hstart := plans_tryLockPrv hlock
  dsimp only at h
  split at h
  · cases h
    exact hstart
  · have hopen := hstart.toFrames.trans (elementary_frames.opens { s with conn := c } kind)
    split at h
    next u hu =>
      rw [hu] at hopen
      obtain ⟨⟨closed, v⟩, hunlock, h⟩ := bind_ok h
      cases h
      exact plans_of_unlock (hopen.trans (elementary_frames.later u kind)) hunlock
    next u _ hu =>
      rw [hu] at hopen
      obtain ⟨⟨closed, v⟩, hunlock, h⟩ := bind_ok h
      cases h
      exact plans_of_unlock hopen hunlock

end Contexts

section Groups

variable {g g' : Group} {hand : List Event} {token : Token} {guards : List Guard}

/-- Every connection that nobody has locked has its next packet scheduled, or the thread that
polls the group has its event at hand. -/
structure Kept (hand : List Event) (g : Group) : Prop where
  named : ∀ token c, g.state.conns.lookup token = some c → c.token = token
  planned : ∀ token c, g.state.conns.lookup token = some c → c.locker = .none →
    Planned g.state.readiness c ∨ sendOf c ∈ hand

theorem Kept.of_eq (h : Kept hand g) (hconns : g'.state.conns = g.state.conns)
    (hreadiness : g'.state.readiness = g.state.readiness) : Kept hand g' := by
  refine ⟨?_, ?_⟩
  · rw [hconns]
    exact h.named
  · rw [hconns, hreadiness]
    exact h.planned

theorem Planned.others {s t : Ctx} {c : QuicConn} (h : Planned s.readiness c) (hs : Frames s t)
    (hne : c.token ≠ s.conn.token) : Planned t.readiness c := by
  obtain ⟨sendDone, now, hagenda⟩ := h
  refine ⟨sendDone, now, ?_⟩
  rw [hs.others (sendOf c) rfl fun heq ↦ hne (congrArg Event.token heq)]
  exact hagenda

theorem Kept.put (h : Kept hand g) (st : State) {s t : Ctx} (hconns : st.conns = g.state.conns)
    (hreadiness : s.readiness = g.state.readiness) (htoken : s.conn.token = token)
    (hframes : Frames s t)
    (hplan : t.conn.locker = .none → Planned t.readiness t.conn ∨ sendOf t.conn ∈ hand)
    (scids : HashMap ConnectionId Token) : Kept hand ⟨st.put token t, scids⟩ := by
  have hlookup : ∀ token' c, (st.put token t).conns.lookup token' = some c →
      token' = token ∧ c = t.conn ∨ token' ≠ token ∧ g.state.conns.lookup token' = some c := by
    intro token' c hc
    by_cases heq : token' = token
    · subst heq
      exact .inl ⟨rfl, Option.some.inj (hc.symm.trans (AList.lookup_insert _))⟩
    · rw [← hconns]
      exact .inr ⟨heq, (AList.lookup_insert_ne heq).symm.trans hc⟩
  refine ⟨fun token' c hc ↦ ?_, fun token' c hc hfree ↦ ?_⟩
  · rcases hlookup token' c hc with ⟨rfl, rfl⟩ | ⟨-, hc⟩
    · exact hframes.token.trans htoken
    · exact h.named token' c hc
  · rcases hlookup token' c hc with ⟨rfl, rfl⟩ | ⟨hne, hc⟩
    · exact hplan hfree
    · refine (h.planned token' c hc hfree).imp_left fun hplanned ↦ ?_
      rw [← hreadiness] at hplanned
      apply hplanned.others hframes
      rw [h.named token' c hc, htoken]
      exact hne

theorem carries_kept : Carries Plans fun g g' ↦ Kept hand g → Kept hand g' where
  refl _ h := h
  trans h h' hkept := h' (h hkept)
  unparked _ _ h := h.of_eq rfl rfl
  put := by
    intro g token c t hc ht h
    apply h.put g.state rfl rfl (h.named token c hc) ht.toFrames
    intro hfree
    rcases ht.plan hfree with ⟨hs, hwrapped, hreadiness⟩ | hplanned
    · rcases h.planned token c hc hs with ⟨sendDone, now, hagenda⟩ | hmem
      · left
        refine ⟨sendDone, now, ?_⟩
        rw [hreadiness, ht.event, hwrapped]
        exact hagenda
      · right
        rw [ht.event]
        exact hmem
    · exact .inl hplanned

theorem kept_register (q : Connection) (env : UnlockEnv) (h : Kept hand g) :
    Kept hand (leftBy (Group.register q env g)) := by
  have hcases := register_cases g q env
  generalize Group.register q env g = r at hcases ⊢
  cases hcases with
  | hangs => exact h
  | taken token tokenNext hnone hscid => exact h.of_eq rfl rfl
  | @fresh token tokenNext n b k closed s log hnone hscid hunlocked hheld hcont =>
    obtain ⟨hframes, hplanned⟩ := unlocked_frames hunlocked
    exact h.put { g.state with
      tokenNext, history := g.state.history ++ [Happening.registered token] } rfl rfl rfl hframes
      (fun _ ↦ .inl hplanned) _

theorem kept_takeConn (token : Token) (h : Kept hand g) :
    Kept hand (leftBy (Group.takeConn token g)) := by
  unfold Group.takeConn
  split
  · exact h
  · have hlookup : ∀ token' c, (g.state.conns.erase token).lookup token' = some c →
        g.state.conns.lookup token' = some c := by
      intro token' c hc
      by_cases heq : token' = token
      · rw [heq, AList.lookup_erase] at hc
        cases hc
      · exact (AList.lookup_erase_ne heq).symm.trans hc
    exact ⟨fun token' c hc ↦ h.named token' c (hlookup token' c hc),
      fun token' c hc ↦ h.planned token' c (hlookup token' c hc)⟩

theorem deref_live (h : Guarded g guards) {guard : Guard} (hguard : guard ∈ guards) :
    ∃ conn, g.state.conns.lookup guard.lock.token = some conn ∧ conn.locker ≠ .none ∧
      Group.deref guard g = .ok conn.wrapped g := by
  obtain ⟨conn, hc, -, hheld⟩ := h.live hguard
  refine ⟨conn, hc, fun hfree ↦ ?_, ?_⟩
  · have hnil := hheld.locker_eq_none_iff.mp hfree
    exact List.not_mem_nil (hnil ▸ mem_guardsOf hguard)
  · have hlabel : conn.wrapped.label = guard.label :=
      (hheld.lock guard (mem_guardsOf hguard)).2.2.symm
    simp only [Group.deref, hc, hlabel, if_true]

theorem kept_derefMut (h : Kept hand g) (hguarded : Guarded g guards) {guard : Guard}
    (hguard : guard ∈ guards) (c : Call) :
    ∃ r g', Group.derefMut guard c g = .ok r g' ∧ Kept hand g' := by
  obtain ⟨conn, hc, hlocked, hderef⟩ := deref_live hguarded hguard
  have hcall := onConn_of_some (f := fun s ↦ .ok ((), (s.call c).2)) hc rfl
  unfold Group.derefMut
  rw [bind_of_ok hderef, bind_of_ok hcall]
  exact ⟨_, _, rfl, carries_kept.put hc (plans_call hlocked c) h⟩

theorem kept_poll (h : Kept hand g) (hapart : Apart g.state.readiness) {env : PollEnv}
    {out : List Event} {deadline : Option Instant}
    (hpoll : Group.poll [] env g = .ok (out, deadline) g') : Kept (hand ++ out) g' := by
  obtain ⟨more, next, rest, heq, hsplits⟩ :=
    Readiness.poll_eq g.state.readiness defaultReleaseTimerThreshold env
  have hpolled := polled_of_splits hapart hsplits
  simp only [Group.poll, heq] at hpoll
  cases hpoll
  refine ⟨h.named, fun token c hc hfree ↦ ?_⟩
  rcases h.planned token c hc hfree with ⟨sendDone, now, hagenda⟩ | hmem
  · by_cases hout : sendOf c ∈ (env.order g.state.readiness.events).1 ++ more
    · exact .inr (List.mem_append_right _ hout)
    · left
      refine ⟨sendDone, now, hagenda ▸ ?_⟩
      have hnot : ∀ d, agenda g.state.readiness (sendOf c) = some d →
          ¬ d.released defaultReleaseTimerThreshold env.now := fun d hd hreleased ↦
        hout ((hpolled.released _).mpr ⟨d, hd, hreleased⟩)
      apply Option.ext
      intro d
      rw [hpolled.left]
      exact ⟨fun hd ↦ hd.1, fun hd ↦ ⟨hd, hnot d hd⟩⟩
  · exact .inr (List.mem_append_left _ hmem)

theorem Kept.mono {hand' : List Event} (h : Kept hand g)
    (hhand : ∀ token c, g.state.conns.lookup token = some c → c.locker = .none →
      sendOf c ∈ hand → sendOf c ∈ hand') : Kept hand' g :=
  ⟨h.named, fun token c hc hfree ↦ (h.planned token c hc hfree).imp_right (hhand token c hc hfree)⟩

end Groups

section Worlds

variable {w : World} {hand : List Event}

theorem kept_next (h : Kept hand w.group) {guards : List Guard} (hguarded : Guarded w.group guards)
    {a : Action} (hpoll : ∀ env, a ≠ .poll env)
    (hcall : ∀ guard c, a = .call guard c → guard ∈ guards) : Kept hand (w.next a).group := by
  have hacts := acts_next w a
  generalize (w.next a).group = g at hacts ⊢
  cases hacts with
  | rests => exact h
  | register q env => exact kept_register q env h
  | lock token kind => exact carries_kept.operation (fun _ _ _ hs ↦ plans_tryLock hs) token _ h
  | lockRecv token unparker =>
    exact carries_kept.lockRecv (fun _ _ _ hs ↦ plans_tryLock hs) token unparker _ h
  | call guard c =>
    obtain ⟨r, g', hrun, hkept⟩ := kept_derefMut h hguarded (hcall guard c rfl) c
    rw [hrun]
    exact hkept
  | unlock guard sendDone env =>
    exact carries_kept.unlockConn (fun _ _ _ hs ↦ plans_unlock hs) _ h
  | takeConn token => exact kept_takeConn token h
  | takeScid token q =>
    unfold Group.takeScid
    dsimp only
    split <;> exact h.of_eq rfl rfl
  | close token app err reason env =>
    exact carries_kept.operation (fun _ _ _ hs ↦ plans_close hs) token _ h
  | streamOpen token kind nonBlocking env =>
    exact carries_kept.operation (fun _ _ _ hs ↦ plans_streamOpen hs) token _ h
  | streamShutdown token streamId err env =>
    exact carries_kept.operation (fun _ _ _ hs ↦ plans_streamClose hs) token _ h
  | poll env => exact absurd rfl (hpoll env)

end Worlds

end ZeroRtt.Poll.Planning
