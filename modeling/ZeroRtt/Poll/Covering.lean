import ZeroRtt.Poll.GuardLifetime

namespace ZeroRtt.Poll.Covering

open ZeroRtt.Lib.Panics ZeroRtt.Lib.Containers ZeroRtt.Lib.Runs
open ZeroRtt.Api.Types ZeroRtt.Api.Quiche ZeroRtt.Poll.Schedule ZeroRtt.Poll.Conn
open ZeroRtt.Poll.Locking ZeroRtt.Poll.Sections ZeroRtt.Poll.Interleaving
open ZeroRtt.Poll.LockProtocol hiding Action step
open ZeroRtt.Poll.GuardLifetime (run_ignore)

variable {α : Type} {g g' : Group} {w : World} {guards guards' : List Guard} {token : Token}
  {c : QuicConn} {s : Ctx}

/-- Whatever holds the lock of a connection is among the guards. There may be others that
were left behind when their connection was taken out of the group. -/
def Covered (g : Group) (guards : List Guard) : Prop :=
  ∀ token c, g.state.conns.lookup token = some c → c.token = token ∧
    ∃ held, Held c held ∧ ∀ guard ∈ held, guard ∈ guards ∧ guard.kind ≠ .readLock

/-- No connection comes to be locked, but for the one that is excepted. -/
def Eases (except : Option Token) (g g' : Group) : Prop :=
  ∀ token c', g'.state.conns.lookup token = some c' → c'.locker ≠ .none → except ≠ some token →
    ∃ c, g.state.conns.lookup token = some c ∧ c.locker ≠ .none

def present (g : Group) (token : Token) : Option Token :=
  (g.state.conns.lookup token).map fun _ ↦ token

section Connections

theorem present_eq_some {t : Token} (h : present g token = some t) :
    t = token ∧ ∃ c, g.state.conns.lookup token = some c := by
  obtain ⟨c, hc, rfl⟩ := Option.map_eq_some_iff.mp h
  exact ⟨rfl, c, hc⟩

theorem Covered.congr (h : Covered g guards) (hconns : g'.state.conns = g.state.conns)
    (hguards : ∀ guard ∈ guards, guard ∈ guards') : Covered g' guards' := by
  intro token c hc
  rw [hconns] at hc
  obtain ⟨htoken, held, hheld, hmem⟩ := h token c hc
  exact ⟨htoken, held, hheld, fun guard hg ↦ ⟨hguards guard (hmem guard hg).1, (hmem guard hg).2⟩⟩

theorem eases_of_conns_eq (except : Option Token) (hconns : g'.state.conns = g.state.conns) :
    Eases except g g' := by
  intro token c' hc' hlocked _
  exact ⟨c', hconns ▸ hc', hlocked⟩

theorem Covered.put {held : List Guard} (h : Covered g guards) (htoken : s.conn.token = token)
    (hheld : Held s.conn held) (hmem : ∀ guard ∈ held, guard ∈ guards' ∧ guard.kind ≠ .readLock)
    (hkeep : ∀ guard ∈ guards, guard.lock.token ≠ token → guard ∈ guards') :
    Covered { g with state := g.state.put token s } guards' := by
  intro t c hc
  by_cases ht : t = token
  · subst ht
    have hput : (g.state.put t s).conns.lookup t = some s.conn := AList.lookup_insert _
    obtain rfl : s.conn = c := Option.some.inj (hput.symm.trans hc)
    exact ⟨htoken, held, hheld, hmem⟩
  · have hput : (g.state.put token s).conns.lookup t = g.state.conns.lookup t :=
      AList.lookup_insert_ne ht
    obtain ⟨hct, held', hheld', hmem'⟩ := h t c (hput.symm.trans hc)
    refine ⟨hct, held', hheld', ?_⟩
    intro guard hg
    obtain ⟨hguards, hkind⟩ := hmem' guard hg
    have hother : guard.lock.token ≠ token := by
      rw [(hheld'.lock guard hg).1, hct]
      exact ht
    exact ⟨hkeep guard hguards hother, hkind⟩

theorem eases_put {except : Option Token} (hlock : s.conn.locker ≠ .none → except ≠ some token →
    ∃ c, g.state.conns.lookup token = some c ∧ c.locker ≠ .none) :
    Eases except g { g with state := g.state.put token s } := by
  intro t c' hc' hlocked hexcept
  by_cases ht : t = token
  · subst ht
    have hput : (g.state.put t s).conns.lookup t = some s.conn := AList.lookup_insert _
    obtain rfl : s.conn = c' := Option.some.inj (hput.symm.trans hc')
    exact hlock hlocked hexcept
  · have hput : (g.state.put token s).conns.lookup t = g.state.conns.lookup t :=
      AList.lookup_insert_ne ht
    exact ⟨c', hput.symm.trans hc', hlocked⟩

theorem Held.locker_ne_readLock {held : List Guard} (h : Held c held)
    (hkind : ∀ guard ∈ held, guard.kind ≠ .readLock) : c.locker ≠ .readLock := by
  intro hlocker
  obtain ⟨hne, hall⟩ := h.shared hlocker
  obtain ⟨guard, hg⟩ := List.exists_mem_of_ne_nil _ hne
  exact hkind guard hg (hall guard hg)

end Connections

section Sections

variable (h : Covered g guards)
include h

theorem Covered.tryLock {kind : LocKind} (hk : kind ≠ .none) (hr : kind ≠ .readLock)
    (token : Token) :
    ∃ r g', Group.onConn token (Group.tryLock kind) g = .ok r g' ∧ Eases (present g token) g g' ∧
      match r with
      | .ok (.ok guard) => Covered g' (guard :: guards) ∧ guard.lock.token = token
      | .ok (.error err) => Covered g' guards ∧ err = .busy ∧
        ∃ c, g.state.conns.lookup token = some c ∧ c.locker ≠ .none
      | .error err => Covered g' guards ∧ err = .notFound := by
  cases hc : g.state.conns.lookup token with
  | none => exact ⟨_, g, onConn_of_none hc, eases_of_conns_eq _ rfl, h, rfl⟩
  | some c =>
    obtain ⟨htoken, held, hheld, hmem⟩ := h token c hc
    have hpresent : present g token = some token := by simp only [present, hc, Option.map_some]
    have heases : ∀ s : Ctx, Eases (present g token) g { g with state := g.state.put token s } :=
      fun s ↦ eases_put fun _ hne ↦ absurd hpresent hne
    by_cases hg : Grants c kind
    · have hrun := tryLock_grants (s := g.state.ctx c) hheld hg
      refine ⟨_, _, onConn_of_some hc hrun, heases _, ?_, htoken⟩
      refine h.put htoken (hheld.grant hk hg) ?_ fun guard hguard _ ↦ List.mem_cons_of_mem _ hguard
      intro guard hguard
      rcases List.mem_cons.mp hguard with rfl | hguard
      · exact ⟨List.mem_cons_self .., hr⟩
      · exact ⟨List.mem_cons_of_mem _ (hmem guard hguard).1, (hmem guard hguard).2⟩
    · have hrun := tryLock_refuses (s := g.state.ctx c) hg
      refine ⟨_, _, onConn_of_some hc hrun, heases _, ?_, rfl, c, rfl, ?_⟩
      · exact h.put ((continues_refuse c kind).token.trans htoken) (hheld.refuse kind) hmem
          fun guard hguard _ ↦ hguard
      · exact fun hnone ↦ hg (.inl hnone)

theorem Covered.tryLock_locked {kind : LocKind} (hk : kind ≠ .none)
    (hc : g.state.conns.lookup token = some c) :
    ∃ r g' c', Group.onConn token (Group.tryLock kind) g = .ok (.ok r) g' ∧ g'.scids = g.scids ∧
      g'.state.conns.lookup token = some c' ∧ c'.locker ≠ .none := by
  obtain ⟨htoken, held, hheld, hmem⟩ := h token c hc
  by_cases hg : Grants c kind
  · have hrun := tryLock_grants (s := g.state.ctx c) hheld hg
    exact ⟨_, _, _, onConn_of_some hc hrun, rfl, AList.lookup_insert _, hk⟩
  · have hrun := tryLock_refuses (s := g.state.ctx c) hg
    refine ⟨_, _, _, onConn_of_some hc hrun, rfl, AList.lookup_insert _, ?_⟩
    have hlocker : (c.refuse kind).locker = c.locker := by
      unfold QuicConn.refuse
      split <;> rfl
    exact fun hnone ↦ hg (.inl (hlocker.symm.trans hnone))

theorem Covered.operate {f : Ctx → Rust (α × Ctx)}
    (hf : ∀ s gs, Held s.conn gs → ∃ a s', f s = .ok (a, s') ∧
      Run LockProtocol.step Enabled ⟨s, gs⟩ ⟨s', gs⟩) (token : Token) :
    ∃ r g', Group.onConn token f g = .ok r g' ∧ Covered g' guards ∧
      Eases none g g' := by
  cases hc : g.state.conns.lookup token with
  | none => exact ⟨_, g, onConn_of_none hc, h, eases_of_conns_eq _ rfl⟩
  | some c =>
    obtain ⟨htoken, held, hheld, hmem⟩ := h token c hc
    obtain ⟨a, s', hrun, hsteps⟩ := hf (g.state.ctx c) held hheld
    obtain ⟨hheld', hcont⟩ := held_run hsteps hheld
    refine ⟨_, _, onConn_of_some hc hrun,
      h.put (hcont.token.trans htoken) hheld' hmem fun guard hguard _ ↦ hguard, eases_put ?_⟩
    intro hlocked _
    exact ⟨c, hc, fun hnone ↦ hlocked (hheld'.locker_eq_none_iff.mpr (hheld.idle hnone))⟩

theorem Covered.derefMut (guard : Guard) (call : Call) :
    Covered (leftBy (Group.derefMut guard call g)) guards ∧
      Eases none g (leftBy (Group.derefMut guard call g)) := by
  cases hc : g.state.conns.lookup guard.lock.token with
  | none =>
    simp only [Group.derefMut, bind, EStateM.bind, Group.deref, hc]
    exact ⟨h, eases_of_conns_eq _ rfl⟩
  | some c =>
    by_cases hlabel : c.wrapped.label = guard.label
    · obtain ⟨htoken, held, hheld, hmem⟩ := h _ c hc
      have hev := Evolution.evolves_call (g.state.ctx c) call
      have hcall := onConn_of_some (f := fun s ↦ .ok ((), (s.call call).2)) hc rfl
      have hheld' := hheld.evolves hev hheld.retries
      simp only [Group.derefMut, bind, EStateM.bind, Group.deref, hc, hlabel, if_true, hcall]
      refine ⟨h.put (hev.token.trans htoken) hheld' hmem fun guard hguard _ ↦ hguard, eases_put ?_⟩
      exact fun hlocked _ ↦ ⟨c, hc, hlocked⟩
    · simp only [Group.derefMut, bind, EStateM.bind, Group.deref, hc, hlabel, if_false]
      exact ⟨h, eases_of_conns_eq _ rfl⟩

theorem Covered.takeConn (token : Token) :
    Covered { g with state.conns := g.state.conns.erase token } guards ∧
      Eases none g { g with state.conns := g.state.conns.erase token } := by
  have hlookup : ∀ t c, (g.state.conns.erase token).lookup t = some c →
      g.state.conns.lookup t = some c := by
    intro t c hc
    by_cases ht : t = token
    · subst ht
      rw [AList.lookup_erase] at hc
      cases hc
    · rwa [AList.lookup_erase_ne ht] at hc
  exact ⟨fun t c hc ↦ h t c (hlookup t c hc), fun t c hc hlocked _ ↦ ⟨c, hlookup t c hc, hlocked⟩⟩

theorem Covered.register {q : Connection} {env : UnlockEnv}
    {r : EStateM.Result Panic Group (Except Error Token)} (hr : Registers g q env r) :
    Covered (leftBy r) guards ∧ Eases none g (leftBy r) := by
  cases hr with
  | hangs => exact ⟨h, eases_of_conns_eq _ rfl⟩
  | taken token tokenNext hnone hscid =>
    exact ⟨h.congr rfl fun _ hguard ↦ hguard, eases_of_conns_eq _ rfl⟩
  | @fresh token tokenNext n b k closed s log hnone hscid hunlocked hheld hcont =>
    let start : Group := ⟨{ g.state with
      tokenNext, history := g.state.history ++ [Happening.registered token] },
      g.scids.insert q.sourceId token⟩
    have hstart : Covered start guards := h.congr rfl fun _ hguard ↦ hguard
    refine ⟨hstart.put hcont.token hheld (by simp) fun _ hguard _ ↦ hguard, ?_⟩
    apply eases_put (g := start)
    intro hlocked
    exact absurd (hheld.locker_eq_none_iff.mpr rfl) hlocked

end Sections

section Unlocking

theorem release_unlocked {n : ℕ} (h : c.locker = .none) : c.release n = .error .assertion := by
  simp [QuicConn.release, h, assert]

theorem release_stale {n : ℕ} (hlocked : c.locker ≠ .none) (h : c.lockCount ≠ n) :
    c.release n = .error .assertion := by
  simp [QuicConn.release, assert, hlocked, h]

theorem release_exclusive (hlocked : c.locker ≠ .none) (hr : c.locker ≠ .readLock) :
    c.release c.lockCount = .ok (relock c (c.lockCount + 1) .none c.readLockCount) := by
  simp [QuicConn.release, assert, hlocked, hr, relock]

theorem Held.vacated {held : List Guard} (h : Held c held)
    (hkind : ∀ guard ∈ held, guard.kind ≠ .readLock) :
    Held (relock c (c.lockCount + 1) .none c.readLockCount) [] := by
  have hreaders : c.readLockCount = 0 := by
    rw [h.readers]
    exact List.countP_eq_zero.mpr fun guard hg ↦ by simpa using hkind guard hg
  rw [hreaders]
  exact held_vacate h.retries

theorem unlock_of_release {n : ℕ} {panic : Panic} (h : s.conn.release n = .error panic)
    (sendDone : Bool) (env : UnlockEnv) : s.unlock n sendDone env = .error panic := by
  simp only [Ctx.unlock, h, error_bind]

theorem leftBy_unlockConn_of_none {ctx : LockContext} (hc : g.state.conns.lookup ctx.token = none)
    (env : UnlockEnv) : (leftBy (Group.unlockConn ctx env g)).state.conns = g.state.conns := by
  let g₀ : Group := { g with state.unparkers := g.state.unparkers.erase ctx.token }
  have hrun := onConn_of_none (g := g₀) (f := fun s ↦ s.unlock ctx.lockCount ctx.sendDone env) hc
  simp only [Group.unlockConn]
  rw [hrun]
  rfl

theorem leftBy_unlockConn_of_error {ctx : LockContext}
    (hc : g.state.conns.lookup ctx.token = some c) {panic : Panic}
    (h : c.release ctx.lockCount = .error panic) (env : UnlockEnv) :
    (leftBy (Group.unlockConn ctx env g)).state.conns = g.state.conns := by
  have hrun : ∀ st : State, (st.ctx c).unlock ctx.lockCount ctx.sendDone env = .error panic :=
    fun st ↦ unlock_of_release h ctx.sendDone env
  simp only [Group.unlockConn, Group.onConn, hc, hrun]
  rfl

theorem leftBy_unlockConn_of_ok {ctx : LockContext}
    (hc : g.state.conns.lookup ctx.token = some c) {env : UnlockEnv} {closed : Bool} {s' : Ctx}
    (h : (g.state.ctx c).unlock ctx.lockCount ctx.sendDone env = .ok (closed, s')) :
    leftBy (Group.unlockConn ctx env g) =
      { g with state := { g.state with
          unparkers := g.state.unparkers.erase ctx.token }.put ctx.token s' } := by
  let g₀ : Group := { g with state.unparkers := g.state.unparkers.erase ctx.token }
  have hrun := onConn_of_some (g := g₀) (f := fun s ↦ s.unlock ctx.lockCount ctx.sendDone env) hc h
  simp only [Group.unlockConn]
  rw [hrun]
  rfl

theorem Covered.unlockConn (h : Covered g guards) (ctx : LockContext) (env : UnlockEnv)
    (hkeep : ∀ guard ∈ guards, guard.lock.token = ctx.token →
      guard.lock.lockCount = ctx.lockCount ∨ guard ∈ guards')
    (hothers : ∀ guard ∈ guards, guard.lock.token ≠ ctx.token → guard ∈ guards') :
    Covered (leftBy (Group.unlockConn ctx env g)) guards' ∧
      Eases none g (leftBy (Group.unlockConn ctx env g)) := by
  cases hc : g.state.conns.lookup ctx.token with
  | none =>
    have hconns := leftBy_unlockConn_of_none hc env
    refine ⟨?_, eases_of_conns_eq _ hconns⟩
    intro t c' hc'
    rw [hconns] at hc'
    obtain ⟨htoken, held, hheld, hmem⟩ := h t c' hc'
    refine ⟨htoken, held, hheld, fun guard hg ↦ ⟨?_, (hmem guard hg).2⟩⟩
    apply hothers guard (hmem guard hg).1
    rw [(hheld.lock guard hg).1, htoken]
    rintro rfl
    rw [hc] at hc'
    cases hc'
  | some c =>
    obtain ⟨htoken, held, hheld, hmem⟩ := h _ c hc
    have hkinds : ∀ guard ∈ held, guard.kind ≠ .readLock := fun guard hg ↦ (hmem guard hg).2
    by_cases hrelease : c.locker ≠ .none ∧ c.lockCount = ctx.lockCount
    · obtain ⟨hlocked, hcount⟩ := hrelease
      have hrel := release_exclusive hlocked (Held.locker_ne_readLock hheld hkinds)
      obtain ⟨closed, s', log, hrun, -, hheld', hcont⟩ := unlock_released
        (s := g.state.ctx c) hrel (Held.vacated hheld hkinds) ctx.sendDone env
      have hrun' : (g.state.ctx c).unlock ctx.lockCount ctx.sendDone env = .ok (closed, s') := by
        rw [← hcount]
        exact hrun
      rw [leftBy_unlockConn_of_ok hc hrun']
      have hstart : Covered { g with
          state.unparkers := g.state.unparkers.erase ctx.token } guards :=
        h.congr rfl fun _ hguard ↦ hguard
      refine ⟨hstart.put (hcont.token.trans htoken) hheld' (by simp) hothers, ?_⟩
      refine eases_put (g := { g with
        state.unparkers := g.state.unparkers.erase ctx.token }) ?_
      intro hlocked'
      exact absurd (hheld'.locker_eq_none_iff.mpr rfl) hlocked'
    · have herror : c.release ctx.lockCount = .error .assertion := by
        by_cases hlocked : c.locker = .none
        · exact release_unlocked hlocked
        · exact release_stale hlocked fun hcount ↦ hrelease ⟨hlocked, hcount⟩
      have hconns := leftBy_unlockConn_of_error hc herror env
      refine ⟨?_, eases_of_conns_eq _ hconns⟩
      intro t c' hc'
      rw [hconns] at hc'
      obtain ⟨htoken', held', hheld', hmem'⟩ := h t c' hc'
      refine ⟨htoken', held', hheld', fun guard hg ↦ ⟨?_, (hmem' guard hg).2⟩⟩
      by_cases ht : t = ctx.token
      · subst ht
        obtain rfl : c = c' := Option.some.inj (hc.symm.trans hc')
        have hlocked : c.locker ≠ .none := by
          intro hnone
          rw [hheld'.idle hnone] at hg
          cases hg
        rcases hkeep guard (hmem' guard hg).1 ((hheld'.lock guard hg).1.trans htoken') with
          hcount | hguard
        · exact absurd ⟨hlocked, (hheld'.lock guard hg).2.1.symm.trans hcount⟩ hrelease
        · exact hguard
      · apply hothers guard (hmem' guard hg).1
        rwa [(hheld'.lock guard hg).1, htoken']

end Unlocking

section Interleavings

/-- The connection that a step tries to lock, for longer than the step takes. -/
def tries (w : World) : Action → Option Token
  | .lock token _ => present w.group token
  | .resume i _ _ _ =>
    match w.pending[i]? with
    | some (.lockRecv _ token) => present w.group token
    | _ => none
  | _ => none

/-- Guards are used as long as they are held, and nobody but `register` asks for a read
lock. -/
def Proper (w : World) (a : Action) : Prop := Legal w a ∧ ∀ token, a ≠ .lock token .readLock

variable {own : List Guard}

/-- The other threads keep the locks covered, as their steps are seen by one that holds
guards of its own. -/
structure Advances (own : List Guard) (except : Option Token) (w w' : World) : Prop where
  covered : Covered w'.group (own ++ w'.guards)
  eases : Eases except w.group w'.group

theorem Advances.ignore {except : Option Token} {x : Section α} (hx :
    Covered (leftBy (x w.group)) (own ++ w.guards) ∧ Eases except w.group (leftBy (x w.group))) :
    Advances own except w (w.run x fun w _ ↦ w) := by
  rw [run_ignore]
  exact ⟨hx.1, hx.2⟩

theorem Covered.hold {guard : Guard} (h : Covered g (guard :: (own ++ guards))) :
    Covered g (own ++ guard :: guards) :=
  h.congr rfl fun _ hguard ↦ List.perm_middle.symm.mem_iff.mp hguard

variable (h : Covered w.group (own ++ w.guards))
include h

theorem Covered.stays {w' : World} (except : Option Token)
    (hconns : w'.group.state.conns = w.group.state.conns) (hguards : w'.guards = w.guards) :
    Advances own except w w' := by
  refine ⟨h.congr hconns ?_, eases_of_conns_eq _ hconns⟩
  rw [hguards]
  exact fun _ hguard ↦ hguard

theorem Covered.next_lock {kind : LocKind} (hk : kind ≠ .none) (hr : kind ≠ .readLock)
    (token : Token) : Advances own (present w.group token) w (w.run (Group.lock token kind) World.hold) := by
  obtain ⟨r, g', hrun, heases, hcovered⟩ := h.tryLock hk hr token
  have hlock : Group.lock token kind w.group = .ok (r.bind id) g' := by
    simp only [Group.lock, bind, EStateM.bind, hrun]
    rfl
  unfold World.run
  rw [hlock]
  rcases r with err | err | guard
  · exact ⟨hcovered.1, heases⟩
  · exact ⟨hcovered.1, heases⟩
  · exact ⟨hcovered.1.hold, heases⟩

theorem Covered.next_lockRecv (token : Token) (unparker : Option Unparker) (dcid : ConnectionId) :
    Advances own (present w.group token) w (w.run (Group.lockRecv token unparker) fun w r ↦
      match r with
      | .error .notFound => w.spawn (.handshake dcid)
      | r => w.hold r) := by
  obtain ⟨r, g', hrun, heases, hcovered⟩ := h.tryLock (show LocKind.recv ≠ .none by simp) (by simp) token
  unfold World.run
  rcases r with err | err | guard
  · obtain ⟨hcovered, rfl⟩ := hcovered
    simp only [Group.lockRecv, hrun]
    exact ⟨hcovered, heases⟩
  · cases unparker with
    | none =>
      simp only [Group.lockRecv, hrun]
      exact ⟨hcovered.1, heases⟩
    | some unparker =>
      simp only [Group.lockRecv, hrun]
      exact ⟨hcovered.1.congr rfl fun _ hguard ↦ hguard, heases⟩
  · simp only [Group.lockRecv, hrun]
    exact ⟨hcovered.1.hold, heases⟩

theorem Covered.next_takeConn (token : Token) : Advances own none w (w.takeConn token) := by
  unfold World.takeConn World.run
  cases hc : w.group.state.conns.lookup token with
  | none =>
    rw [takeConn_of_none hc]
    exact h.stays none rfl rfl
  | some c =>
    rw [takeConn_of_some hc]
    obtain ⟨hcovered, heases⟩ := h.takeConn token
    exact ⟨hcovered, heases⟩

theorem Covered.next_register (q : Connection) (env : UnlockEnv) :
    Advances own none w (w.run (Group.register q env) fun w _ ↦ w) :=
  .ignore (h.register (register_cases w.group q env))

theorem Covered.next_operate {f : Ctx → Rust (Except Error α × Ctx)}
    (hf : ∀ s gs, Held s.conn gs → ∃ a s', f s = .ok (a, s') ∧
      Run LockProtocol.step Enabled ⟨s, gs⟩ ⟨s', gs⟩) (token : Token) :
    Advances own none w (w.run (do return (← Group.onConn token f).bind id) fun w _ ↦ w) := by
  obtain ⟨r, g', hrun, hcovered, heases⟩ := h.operate hf token
  refine .ignore ?_
  simp only [bind, EStateM.bind, hrun]
  exact ⟨hcovered, heases⟩

theorem Covered.next_unlock (guard : Guard) (sendDone : Bool) (env : UnlockEnv) :
    Advances own none w (w.next (.unlock guard sendDone env)) := by
  have hunlock : Covered _ (own ++ w.guards.erase guard) ∧ _ :=
    h.unlockConn { guard.lock with sendDone } env ?_ ?_
  · simp only [World.next, World.run]
    cases hrun : Group.unlockConn { guard.lock with sendDone } env w.group with
    | error panic g' =>
      rw [hrun] at hunlock
      exact ⟨hunlock.1, hunlock.2⟩
    | ok closed g' =>
      rw [hrun] at hunlock
      cases closed <;> exact ⟨hunlock.1, hunlock.2⟩
  · intro guard' hmem _
    rcases List.mem_append.mp hmem with hmem | hmem
    · exact .inr (List.mem_append_left _ hmem)
    · by_cases heq : guard' = guard
      · exact .inl (by rw [heq])
      · exact .inr (List.mem_append_right _ ((List.mem_erase_of_ne heq).mpr hmem))
  · intro guard' hmem hne
    rcases List.mem_append.mp hmem with hmem | hmem
    · exact List.mem_append_left _ hmem
    · refine List.mem_append_right _ ((List.mem_erase_of_ne ?_).mpr hmem)
      rintro rfl
      exact hne rfl

theorem Covered.next_resume (unparker : Option Unparker) (accepted : Option Connection)
    (env : UnlockEnv) (p : Pending) :
    Advances own (match p with
      | .lockRecv _ token => present w.group token
      | _ => none) w (w.resume unparker accepted env p) := by
  cases p with
  | takeConn token => exact h.next_takeConn token
  | takeScid token conn =>
    simp only [World.resume, run_ignore]
    refine h.stays none ?_ rfl
    unfold Group.takeScid
    dsimp only
    split <;> rfl
  | lockRecv dcid token => exact h.next_lockRecv token unparker dcid
  | handshake dcid =>
    cases accepted with
    | none => exact h.stays none rfl rfl
    | some conn => exact h.next_register conn env

theorem Covered.next {a : Action} (ha : Proper w a) : Advances own (tries w a) w (w.next a) := by
  cases a with
  | connect conn env => exact h.next_register conn env
  | lock token kind =>
    refine h.next_lock ha.1 ?_ token
    rintro rfl
    exact ha.2 token rfl
  | call guard c => exact .ignore (h.derefMut guard c)
  | unlock guard sendDone env => exact h.next_unlock guard sendDone env
  | deregister token => exact h.next_takeConn token
  | close token app err reason env =>
    exact h.next_operate (fun s gs hheld ↦ close_run hheld app err reason env) token
  | streamOpen token kind nonBlocking env =>
    exact h.next_operate (fun s gs hheld ↦ streamOpen_run hheld kind nonBlocking env) token
  | streamShutdown token streamId err env =>
    exact h.next_operate (fun s gs hheld ↦ streamClose_run hheld streamId err env) token
  | poll env =>
    simp only [World.next, run_ignore]
    refine h.stays none ?_ rfl
    unfold Group.poll
    cases w.group.state.readiness.poll [] defaultReleaseTimerThreshold env <;> rfl
  | lookupScid dcid =>
    simp only [World.next, World.run, Group.lookupScid]
    cases w.group.scids.lookup dcid <;> exact h.stays none rfl rfl
  | resume i unparker accepted env =>
    simp only [World.next, tries]
    cases hp : w.pending[i]? with
    | none => exact h.stays none rfl rfl
    | some p =>
      have hw : Covered { w with pending := w.pending.eraseIdx i }.group (own ++ w.guards) := h
      obtain ⟨hcovered, heases⟩ := hw.next_resume unparker accepted env p
      cases p <;> exact ⟨hcovered, heases⟩

theorem Covered.next_locked {a : Action} (ha : Proper w a) (ht : tries w a = some token) :
    (w.next a).group.scids = w.group.scids ∧
      ∃ c, (w.next a).group.state.conns.lookup token = some c ∧ c.locker ≠ .none := by
  cases a with
  | lock t kind =>
    obtain ⟨rfl, c, hc⟩ := present_eq_some ht
    obtain ⟨r, g', c', hrun, hscids, hc', hlocked⟩ := h.tryLock_locked ha.1 hc
    have hlock : Group.lock token kind w.group = .ok r g' := by
      simp only [Group.lock, bind, EStateM.bind, hrun]
      rfl
    simp only [World.next, World.run, hlock]
    cases r <;> exact ⟨hscids, c', hc', hlocked⟩
  | resume i unparker accepted env =>
    simp only [tries] at ht
    split at ht
    next dcid t hp =>
      obtain ⟨rfl, c, hc⟩ := present_eq_some ht
      obtain ⟨r, g', c', hrun, hscids, hc', hlocked⟩ :=
        h.tryLock_locked (show LocKind.recv ≠ .none by simp) hc
      simp only [World.next, hp, World.resume, World.run]
      rcases r with err | guard
      · cases unparker <;> simp only [Group.lockRecv, hrun] <;> exact ⟨hscids, c', hc', hlocked⟩
      · simp only [Group.lockRecv, hrun]
        exact ⟨hscids, c', hc', hlocked⟩
    next => cases ht
  | _ => cases ht

end Interleavings

end ZeroRtt.Poll.Covering
