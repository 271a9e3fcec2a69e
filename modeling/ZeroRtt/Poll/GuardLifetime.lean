import ZeroRtt.Poll.Interleaving

namespace ZeroRtt.Poll.GuardLifetime

open ZeroRtt.Lib.Panics ZeroRtt.Lib.Containers ZeroRtt.Lib.Runs
open ZeroRtt.Api.Types ZeroRtt.Api.Quiche ZeroRtt.Poll.Schedule ZeroRtt.Poll.Conn
open ZeroRtt.Poll.Locking ZeroRtt.Poll.Sections ZeroRtt.Poll.Interleaving
open ZeroRtt.Poll.LockProtocol hiding Action step

variable {g : Group} {w : World} {guards guards' : List Guard} {token : Token} {α : Type}

def guardsOf (guards : List Guard) (token : Token) : List Guard :=
  guards.filter fun guard ↦ guard.lock.token = token

def Attached (token : Token) : Option QuicConn → List Guard → Prop
  | none, guards => guards = []
  | some conn, guards => conn.token = token ∧ Held conn guards

def Guarded (g : Group) (guards : List Guard) : Prop :=
  ∀ token, Attached token (g.state.conns.lookup token) (guardsOf guards token)

section Guards

theorem guardsOf_cons_self {guard : Guard} (h : guard.lock.token = token) :
    guardsOf (guard :: guards) token = guard :: guardsOf guards token := by
  simp [guardsOf, h]

theorem guardsOf_cons_of_ne {guard : Guard} (h : token ≠ guard.lock.token) :
    guardsOf (guard :: guards) token = guardsOf guards token := by
  simp [guardsOf, Ne.symm h]

theorem guardsOf_erase (guards : List Guard) (guard : Guard) (token : Token) :
    guardsOf (guards.erase guard) token = (guardsOf guards token).erase guard :=
  List.erase_filter.symm

theorem guardsOf_erase_of_ne {guard : Guard} (h : token ≠ guard.lock.token) :
    guardsOf (guards.erase guard) token = guardsOf guards token := by
  rw [guardsOf_erase, List.erase_of_not_mem]
  simp [guardsOf, Ne.symm h]

theorem mem_guardsOf {guard : Guard} (h : guard ∈ guards) :
    guard ∈ guardsOf guards guard.lock.token := by
  simpa [guardsOf] using h

theorem Guarded.live (h : Guarded g guards) {guard : Guard} (hg : guard ∈ guards) :
    ∃ conn, g.state.conns.lookup guard.lock.token = some conn ∧ conn.token = guard.lock.token ∧
      Held conn (guardsOf guards guard.lock.token) := by
  have hmem := mem_guardsOf hg
  have hatt := h guard.lock.token
  cases hc : g.state.conns.lookup guard.lock.token with
  | none =>
    rw [hc] at hatt
    have hnil : guardsOf guards guard.lock.token = [] := hatt
    simp [hnil] at hmem
  | some conn =>
    rw [hc] at hatt
    exact ⟨conn, rfl, hatt⟩

theorem Guarded.congr (h : Guarded g guards) {g' : Group}
    (hconns : g'.state.conns = g.state.conns) : Guarded g' guards := by
  unfold Guarded
  rw [hconns]
  exact h

theorem Guarded.put (h : Guarded g guards) {s : Ctx} (htoken : s.conn.token = token)
    (hheld : Held s.conn (guardsOf guards' token))
    (hframe : ∀ t, t ≠ token → guardsOf guards' t = guardsOf guards t) :
    Guarded { g with state := g.state.put token s } guards' := by
  intro t
  by_cases ht : t = token
  · subst ht
    have hlookup : (g.state.put t s).conns.lookup t = some s.conn := AList.lookup_insert _
    rw [hlookup]
    exact ⟨htoken, hheld⟩
  · have hlookup : (g.state.put token s).conns.lookup t = g.state.conns.lookup t :=
      AList.lookup_insert_ne ht
    rw [hlookup, hframe t ht]
    exact h t

end Guards

section Steps

theorem Guarded.onConn_tryLock (h : Guarded g guards) {kind : LocKind} (hk : kind ≠ .none)
    (token : Token) :
    ∃ r g', Group.onConn token (Group.tryLock kind) g = .ok r g' ∧ g'.scids = g.scids ∧
      match r with
      | .ok (.ok guard) => Guarded g' (guard :: guards)
      | _ => Guarded g' guards := by
  have hatt := h token
  cases hc : g.state.conns.lookup token with
  | none => exact ⟨_, g, onConn_of_none hc, rfl, h⟩
  | some conn =>
    rw [hc] at hatt
    obtain ⟨htoken, hheld⟩ := hatt
    by_cases hg : Grants conn kind
    · have hrun := tryLock_grants (s := g.state.ctx conn) hheld hg
      have hguard : (guardOf conn kind).lock.token = token := htoken
      have hgranted := hheld.grant hk hg
      rw [← guardsOf_cons_self hguard] at hgranted
      refine ⟨_, _, onConn_of_some hc hrun, rfl, h.put htoken hgranted ?_⟩
      intro t ht
      exact guardsOf_cons_of_ne (hguard ▸ ht)
    · have hrun := tryLock_refuses (s := g.state.ctx conn) hg
      refine ⟨_, _, onConn_of_some hc hrun, rfl, h.put ?_ (hheld.refuse kind) fun _ _ ↦ rfl⟩
      exact (continues_refuse conn kind).token.trans htoken

theorem Guarded.onConn_run (h : Guarded g guards) {f : Ctx → Rust (α × Ctx)}
    (hf : ∀ s gs, Held s.conn gs → ∃ a s', f s = .ok (a, s') ∧
      Run LockProtocol.step Enabled ⟨s, gs⟩ ⟨s', gs⟩) (token : Token) :
    ∃ r g', Group.onConn token f g = .ok r g' ∧ g'.scids = g.scids ∧ Guarded g' guards := by
  have hatt := h token
  cases hc : g.state.conns.lookup token with
  | none => exact ⟨_, g, onConn_of_none hc, rfl, h⟩
  | some conn =>
    rw [hc] at hatt
    obtain ⟨htoken, hheld⟩ := hatt
    obtain ⟨a, s', hrun, hsteps⟩ := hf (g.state.ctx conn) _ hheld
    obtain ⟨hheld', hcont⟩ := held_run hsteps hheld
    exact ⟨_, _, onConn_of_some hc hrun, rfl,
      h.put (hcont.token.trans htoken) hheld' fun _ _ ↦ rfl⟩

theorem Guarded.unlockConn (h : Guarded g guards) {guard : Guard} (hg : guard ∈ guards)
    (sendDone : Bool) (env : UnlockEnv) :
    ∃ closed g', Group.unlockConn { guard.lock with sendDone } env g = .ok closed g' ∧
      g'.scids = g.scids ∧ Guarded g' (guards.erase guard) := by
  obtain ⟨conn, hc, htoken, hheld⟩ := h.live hg
  let g₀ : Group := { g with state.unparkers := g.state.unparkers.erase guard.lock.token }
  have hc₀ : g₀.state.conns.lookup guard.lock.token = some conn := hc
  obtain ⟨n, b, k, closed, s', log, hrun, -, hheld', hcont⟩ :=
    unlock_held (s := g₀.state.ctx conn) hheld (mem_guardsOf hg) sendDone env
  have honConn := onConn_of_some (f := fun s ↦ s.unlock guard.lock.lockCount sendDone env) hc₀ hrun
  refine ⟨closed, { g₀ with state := g₀.state.put guard.lock.token s' }, ?_, rfl, ?_⟩
  · simp only [Group.unlockConn]
    rw [honConn]
  · have h₀ : Guarded g₀ guards := h.congr rfl
    refine h₀.put (hcont.token.trans htoken) ?_ fun t ht ↦ guardsOf_erase_of_ne ht
    rw [guardsOf_erase]
    exact hheld'

theorem Guarded.register (h : Guarded g guards) {q : Connection} {env : UnlockEnv}
    {r : EStateM.Result Panic Group (Except Error Token)} (hr : Registers g q env r) :
    Guarded (leftBy r) guards := by
  cases hr with
  | hangs => exact h
  | taken token tokenNext hnone hscid => exact h.congr rfl
  | fresh token tokenNext hnone hscid hunlocked hheld hcont =>
    have hnil : guardsOf guards token = [] := by
      have hatt := h token
      rwa [hnone] at hatt
    have hstart : Guarded ⟨{ g.state with
        tokenNext, history := g.state.history ++ [Happening.registered token] },
        g.scids.insert q.sourceId token⟩ guards := h.congr rfl
    refine hstart.put hcont.token ?_ fun _ _ ↦ rfl
    rw [hnil]
    exact hheld

theorem Guarded.takeConn (h : Guarded g guards)
    (hfree : ∀ conn, g.state.conns.lookup token = some conn → conn.locker = .none) :
    Guarded { g with state.conns := g.state.conns.erase token } guards := by
  intro t
  by_cases ht : t = token
  · subst ht
    have hatt := h t
    rw [AList.lookup_erase]
    cases hc : g.state.conns.lookup t with
    | none => rwa [hc] at hatt
    | some conn =>
      rw [hc] at hatt
      exact hatt.2.idle (hfree conn hc)
  · rw [AList.lookup_erase_ne ht]
    exact h t

end Steps

section Worlds

def Safe (w : World) : Prop := Guarded w.group w.guards

def takes (w : World) : Action → Option Token
  | .deregister token => some token
  | .resume i _ _ _ =>
    match w.pending[i]? with
    | some (.takeConn token) => some token
    | _ => none
  | _ => none

def TakesUnlocked (w : World) (a : Action) : Prop :=
  ∀ token conn, takes w a = some token → w.group.state.conns.lookup token = some conn →
    conn.locker = .none

theorem run_ignore (w : World) (x : Section α) :
    w.run x (fun w _ ↦ w) = { w with group := leftBy (x w.group) } := by
  unfold World.run
  cases x w.group <;> rfl

theorem Safe.register (h : Safe w) (q : Connection) (env : UnlockEnv) :
    Safe (w.run (Group.register q env) fun w _ ↦ w) := by
  rw [run_ignore]
  exact Guarded.register h (register_cases w.group q env)

theorem Safe.takeConn (h : Safe w) (hfree : ∀ conn, w.group.state.conns.lookup token = some conn →
    conn.locker = .none) : Safe (w.takeConn token) := by
  unfold World.takeConn World.run
  cases hc : w.group.state.conns.lookup token with
  | none =>
    rw [takeConn_of_none hc]
    exact h
  | some conn =>
    rw [takeConn_of_some hc]
    exact Guarded.takeConn h hfree

theorem Safe.lock (h : Safe w) {kind : LocKind} (hk : kind ≠ .none) (token : Token) :
    Safe (w.run (Group.lock token kind) World.hold) := by
  obtain ⟨r, g', hr, -, hg'⟩ := Guarded.onConn_tryLock h hk token
  have hlock : Group.lock token kind w.group = .ok (r.bind id) g' := by
    simp only [Group.lock, bind, EStateM.bind, hr]
    rfl
  unfold World.run
  rw [hlock]
  rcases r with err | err | guard
  · exact hg'
  · exact hg'
  · exact hg'

theorem Safe.lockRecv (h : Safe w) (token : Token) (unparker : Option Unparker)
    (dcid : ConnectionId) : Safe (w.run (Group.lockRecv token unparker) fun w r ↦
      match r with
      | .error .notFound => w.spawn (.handshake dcid)
      | r => w.hold r) := by
  obtain ⟨r, g', hr, -, hg'⟩ := Guarded.onConn_tryLock h (show LocKind.recv ≠ .none by simp) token
  unfold World.run
  rcases r with err | err | guard
  · simp only [Group.lockRecv, hr]
    cases err <;> exact hg'
  · cases unparker with
    | none =>
      simp only [Group.lockRecv, hr]
      exact hg'
    | some unparker =>
      simp only [Group.lockRecv, hr]
      exact Guarded.congr hg' rfl
  · simp only [Group.lockRecv, hr]
    exact hg'

theorem Safe.operate (h : Safe w) {f : Ctx → Rust (Except Error α × Ctx)}
    (hf : ∀ s gs, Held s.conn gs → ∃ a s', f s = .ok (a, s') ∧
      Run LockProtocol.step Enabled ⟨s, gs⟩ ⟨s', gs⟩) (token : Token) :
    Safe (w.run (do return (← Group.onConn token f).bind id) fun w _ ↦ w) := by
  obtain ⟨r, g', hr, -, hg'⟩ := Guarded.onConn_run h hf token
  rw [run_ignore]
  simp only [bind, EStateM.bind, hr]
  exact hg'

theorem Safe.call (h : Safe w) {guard : Guard} (hg : guard ∈ w.guards) (c : Call) :
    Safe (w.run (Group.derefMut guard c) fun w _ ↦ w) := by
  obtain ⟨conn, hc, htoken, hheld⟩ := Guarded.live h hg
  have hlabel : conn.wrapped.label = guard.label := (hheld.lock guard (mem_guardsOf hg)).2.2.symm
  have hderef : Group.deref guard w.group = .ok conn.wrapped w.group := by
    simp only [Group.deref, hc, hlabel, if_true]
  have hcall := onConn_of_some (f := fun s ↦ .ok ((), (s.call c).2)) hc rfl
  have hev := Evolution.evolves_call (w.group.state.ctx conn) c
  rw [run_ignore]
  simp only [Group.derefMut, bind, EStateM.bind, hderef, hcall]
  exact Guarded.put h (hev.token.trans htoken) (hheld.evolves hev hheld.retries) fun _ _ ↦ rfl

theorem Safe.unlock (h : Safe w) {guard : Guard} (hg : guard ∈ w.guards) (sendDone : Bool)
    (env : UnlockEnv) : Safe (w.next (.unlock guard sendDone env)) := by
  obtain ⟨closed, g', hr, -, hg'⟩ := Guarded.unlockConn h hg sendDone env
  simp only [World.next, World.run, hr]
  cases closed <;> exact hg'

theorem Safe.resume (h : Safe w) (unparker : Option Unparker) (accepted : Option Connection)
    (env : UnlockEnv) {p : Pending} (hfree : ∀ token conn, p = .takeConn token →
      w.group.state.conns.lookup token = some conn → conn.locker = .none) :
    Safe (w.resume unparker accepted env p) := by
  cases p with
  | takeConn token => exact h.takeConn fun conn hc ↦ hfree token conn rfl hc
  | takeScid token conn =>
    simp only [World.resume, run_ignore]
    apply Guarded.congr h
    unfold Group.takeScid
    dsimp only
    split <;> rfl
  | lockRecv dcid token => exact h.lockRecv token unparker dcid
  | handshake dcid =>
    cases accepted with
    | none => exact h
    | some conn => exact h.register conn env

theorem safe_next (h : Safe w) {a : Action} (ha : Legal w a) (hu : TakesUnlocked w a) :
    Safe (w.next a) := by
  cases a with
  | connect conn env => exact h.register conn env
  | lock token kind => exact h.lock ha token
  | call guard c => exact h.call ha c
  | unlock guard sendDone env => exact h.unlock ha sendDone env
  | deregister token => exact h.takeConn fun conn hc ↦ hu token conn rfl hc
  | close token app err reason env =>
    exact h.operate (fun s gs hheld ↦ close_run hheld app err reason env) token
  | streamOpen token kind nonBlocking env =>
    exact h.operate (fun s gs hheld ↦ streamOpen_run hheld kind nonBlocking env) token
  | streamShutdown token streamId err env =>
    exact h.operate (fun s gs hheld ↦ streamClose_run hheld streamId err env) token
  | poll env =>
    simp only [World.next, run_ignore]
    apply Guarded.congr h
    unfold Group.poll
    cases w.group.state.readiness.poll [] defaultReleaseTimerThreshold env <;> rfl
  | lookupScid dcid =>
    simp only [World.next, World.run, Group.lookupScid]
    cases w.group.scids.lookup dcid <;> exact h
  | resume i unparker accepted env =>
    simp only [World.next]
    cases hp : w.pending[i]? with
    | none => exact h
    | some p =>
      have hsafe : Safe { w with pending := w.pending.eraseIdx i } := h
      apply hsafe.resume unparker accepted env
      rintro token conn rfl hc
      exact hu token conn (by simp only [takes, hp]) hc

theorem run_safe (h : Run step (fun w a ↦ Legal w a ∧ TakesUnlocked w a) .initial w) : Safe w := by
  refine h.invariant (P := Safe) ?_ ?_
  · intro token
    have hnone : World.initial.group.state.conns.lookup token = none := AList.lookup_empty token
    rw [hnone]
    rfl
  · intro w w' a hw ha hstep
    cases hstep
    exact safe_next hw ha.1 ha.2

/-- Every guard refers to the connection in the group that it was taken on, and
can be dropped. A guard names this connection by its token and label: that the
map of the group may move the value when it grows is not modelled. -/
def GuardsLive (w : World) : Prop := ∀ guard ∈ w.guards,
  (∃ conn, w.group.state.conns.lookup guard.lock.token = some conn ∧
    conn.wrapped.label = guard.label) ∧
  ∀ sendDone env, ∃ closed g',
    Group.unlockConn { guard.lock with sendDone } env w.group = .ok closed g'

theorem Safe.guardsLive (h : Safe w) : GuardsLive w := by
  intro guard hg
  obtain ⟨conn, hc, -, hheld⟩ := Guarded.live h hg
  refine ⟨⟨conn, hc, (hheld.lock guard (mem_guardsOf hg)).2.2.symm⟩, ?_⟩
  intro sendDone env
  obtain ⟨closed, g', hr, -⟩ := Guarded.unlockConn h hg sendDone env
  exact ⟨closed, g', hr⟩

theorem Safe.exists_guard (h : Safe w) {conn : QuicConn}
    (hc : w.group.state.conns.lookup token = some conn) (hlocked : conn.locker ≠ .none) :
    ∃ guard ∈ w.guards, guard.lock.token = token := by
  have hatt := h token
  rw [hc] at hatt
  obtain ⟨-, hheld⟩ := hatt
  have hne : guardsOf w.guards token ≠ [] := fun hnil ↦
    hlocked (hheld.locker_eq_none_iff.mpr hnil)
  obtain ⟨guard, hmem⟩ := List.exists_mem_of_ne_nil _ hne
  obtain ⟨hg, htoken⟩ := List.mem_filter.mp hmem
  exact ⟨guard, hg, by simpa using htoken⟩

theorem takeConn_guards (w : World) (token : Token) : (w.takeConn token).guards = w.guards := by
  unfold World.takeConn World.run
  cases Group.takeConn token w.group with
  | ok r g => cases r <;> rfl
  | error panic g => rfl

theorem lookup_takes {a : Action} (ht : takes w a = some token) :
    (w.next a).guards = w.guards ∧ (w.next a).group.state.conns.lookup token = none := by
  cases a with
  | deregister t =>
    cases ht
    refine ⟨takeConn_guards w token, ?_⟩
    rw [World.next, takeConn_group]
    exact lookup_takeConn token w.group
  | resume i unparker accepted env =>
    simp only [takes] at ht
    split at ht
    next t hp =>
      cases ht
      simp only [World.next, hp, World.resume]
      refine ⟨takeConn_guards _ token, ?_⟩
      rw [takeConn_group]
      exact lookup_takeConn token w.group
    next => cases ht
  | _ => cases ht

theorem Safe.not_guardsLive (h : Safe w) {a : Action} (hu : ¬ TakesUnlocked w a) :
    ¬ GuardsLive (w.next a) := by
  simp only [TakesUnlocked, not_forall] at hu
  obtain ⟨token, conn, ht, hc, hlocked⟩ := hu
  obtain ⟨guard, hg, rfl⟩ := h.exists_guard hc hlocked
  obtain ⟨hguards, hnone⟩ := lookup_takes ht
  intro hlive
  obtain ⟨⟨conn', hc', -⟩, -⟩ := hlive guard (hguards.symm ▸ hg)
  rw [hnone] at hc'
  cases hc'

/-- As long as connections are only taken out while they are not locked, every
guard refers to a connection in the group and can be dropped. The first step
that does otherwise leaves a guard behind for which this is wrong. -/
theorem locked_connection_stays
    (h : Run step (fun w a ↦ Legal w a ∧ TakesUnlocked w a) .initial w) :
    GuardsLive w ∧ ∀ a, Legal w a → (GuardsLive (w.next a) ↔ TakesUnlocked w a) := by
  have hsafe := run_safe h
  refine ⟨hsafe.guardsLive, ?_⟩
  intro a ha
  refine ⟨?_, ?_⟩
  · intro hlive
    by_contra hu
    exact hsafe.not_guardsLive hu hlive
  · intro hu
    exact (safe_next hsafe ha hu).guardsLive

def connected : World :=
  (World.initial.next (.connect (Script.connection ⟨false, [1], [], [], none⟩)
    .still)).next (.lock ⟨0⟩ .recv)

def firstGuard : Guard := ⟨⟨⟨0⟩, 1, false⟩, .recv, 0⟩

theorem locked_connection_stays_example :
    ∃ w, Run step (fun w a ↦ Legal w a ∧ TakesUnlocked w a) .initial w ∧
      firstGuard ∈ w.guards ∧ w.group.state.conns.lookup ⟨1⟩ = none ∧
      (w.group.state.conns.lookup ⟨0⟩).isSome = true := by
  have hconnect : Run step (fun w a ↦ Legal w a ∧ TakesUnlocked w a) .initial _ :=
    .one (i := .connect (Script.connection ⟨false, [1], [], [], none⟩) .still)
      ⟨trivial, fun _ _ ht ↦ by cases ht⟩ rfl
  have hsecond := hconnect.tail
    (i := .connect (Script.connection ⟨false, [2], [], [], none⟩) .still)
    ⟨by trivial, fun _ _ ht ↦ by cases ht⟩ rfl
  have hlock := hsecond.tail (i := .lock ⟨0⟩ .recv)
    ⟨by simp [Legal], fun _ _ ht ↦ by cases ht⟩ rfl
  -- the second connection is not locked when it is taken out
  have hderegister := hlock.tail (i := .deregister ⟨1⟩) ⟨by trivial, by
    intro token conn ht hc
    cases ht
    cases hc
    rfl⟩ rfl
  have hguard := (locked_connection_stays hderegister).1 firstGuard (List.mem_cons_self ..)
  obtain ⟨⟨conn, hc, -⟩, -⟩ := hguard
  have htoken : firstGuard.lock.token = ⟨0⟩ := rfl
  rw [htoken] at hc
  exact ⟨_, hderegister, List.mem_cons_self .., rfl, by rw [hc]; rfl⟩

/-- An explicit `deregister` while a guard is outstanding: the connection is
gone, and dropping the guard panics. -/
theorem locked_connection_removed :
    ∃ w, Run step Legal .initial w ∧ firstGuard ∈ w.guards ∧
      w.group.state.conns.lookup firstGuard.lock.token = none ∧
      ∃ g', Group.unlockConn firstGuard.lock .still w.group =
        .error (.expect "Unlock.") g' := by
  have hconnect : Run step Legal .initial _ :=
    .one (i := .connect (Script.connection ⟨false, [1], [], [], none⟩) .still)
      trivial rfl
  have hlock : Run step Legal .initial connected :=
    hconnect.tail (i := .lock ⟨0⟩ .recv) (by simp [Legal]) rfl
  have hlegal : Legal connected (.deregister ⟨0⟩) := trivial
  have hderegister := hlock.tail hlegal rfl
  exact ⟨_, hderegister, List.mem_cons_self .., rfl, _, rfl⟩

end Worlds

end ZeroRtt.Poll.GuardLifetime
