import ZeroRtt.Poll.Reporting

namespace ZeroRtt.Poll.Noting

open ZeroRtt.Lib.Panics ZeroRtt.Lib.Containers ZeroRtt.Lib.Runs
open ZeroRtt.Api.Types ZeroRtt.Api.Quiche ZeroRtt.Poll.Schedule ZeroRtt.Poll.Conn
open ZeroRtt.Poll.Retries ZeroRtt.Poll.Unlock ZeroRtt.Poll.Locking
open ZeroRtt.Poll.LockProtocol hiding Action step
open ZeroRtt.Poll.Sections ZeroRtt.Poll.Walks ZeroRtt.Poll.Chronicle ZeroRtt.Poll.Steps
open ZeroRtt.Poll.Reporting
open ZeroRtt.Poll.Interleaving
open ZeroRtt.Poll.GuardLifetime (firstGuard takes)

variable {α : Type}

section Contexts

variable {s t : Ctx}

def Noted (s t : Ctx) : Prop :=
  t.conn.established = (s.conn.established || t.conn.wrapped.isEstablished)

def Unnoted (s t : Ctx) : Prop := t.conn.established = s.conn.established

/-- An operation that unlocks the connection if it finds it free takes note then,
and only then. -/
def Notes (f : Ctx → Rust (α × Ctx)) : Prop :=
  ∀ s a t, f s = .ok (a, t) →
    (s.conn.locker = .none → Noted s t) ∧ (s.conn.locker ≠ .none → Unnoted s t)

theorem unnoted_refuse (s : Ctx) (kind : LocKind) :
    Unnoted s { s with conn := s.conn.refuse kind } := by
  unfold Unnoted QuicConn.refuse
  split <;> rfl

theorem unnoted_tryLock {kind : LocKind} {r : Except Error Guard}
    (h : Group.tryLock kind s = .ok (r, t)) : Unnoted s t := by
  obtain ⟨⟨r', c⟩, hlock, h⟩ := bind_ok h
  cases h
  rcases tryLockPrv_cases hlock with ⟨_, n, b, k, -, rfl⟩ | ⟨-, rfl⟩
  · rfl
  · exact unnoted_refuse s kind

theorem notes_close (app : Bool) (err : ℕ) (reason : Bytes) (env : UnlockEnv) :
    Notes fun s ↦ s.close app err reason env := by
  intro s r t h
  refine ⟨fun hfree ↦ ?_, fun hlocked ↦ ?_⟩
  · simp only [Ctx.close, tryLockPrv_free hfree _ (show LocKind.close app err reason ≠ .readLock by simp),
      ok_bind, wouldBlock] at h
    obtain ⟨⟨closed, u⟩, hunlock, h⟩ := bind_ok h
    cases h
    exact (unlock_reports hunlock).2
  · dsimp only at h
    rw [close_refuses env (not_grants_of_locked hlocked (by simp))] at h
    cases h
    exact unnoted_refuse s _

theorem notes_streamClose (id err : ℕ) (env : UnlockEnv) :
    Notes fun s ↦ s.streamClose id err env := by
  intro s r t h
  refine ⟨fun hfree ↦ ?_, fun hlocked ↦ ?_⟩
  · simp only [Ctx.streamClose, tryLockPrv_free hfree _ (show LocKind.streamClose id err ≠ .readLock by simp),
      ok_bind, wouldBlock] at h
    obtain ⟨⟨closed, u⟩, hunlock, h⟩ := bind_ok h
    cases h
    have hnoted := (unlock_reports hunlock).2
    rwa [streamClosePrv_snd] at hnoted
  · dsimp only at h
    rw [streamClose_refuses env (not_grants_of_locked hlocked (by simp))] at h
    cases h
    exact unnoted_refuse s _

theorem notes_streamOpen (kind : StreamKind) (nonBlocking : Bool) (env : UnlockEnv) :
    Notes fun s ↦ s.streamOpen kind nonBlocking env := by
  intro s r t h
  refine ⟨fun hfree ↦ ?_, fun hlocked ↦ ?_⟩
  · have hopen := streamOpenPrv_established { s with conn.locker := .streamOpen kind } kind
    simp only [Ctx.streamOpen, tryLockPrv_free hfree _ (show LocKind.streamOpen kind ≠ .readLock by simp),
      ok_bind] at h
    split at h
    next u hu =>
      rw [hu] at hopen
      obtain ⟨⟨closed, v⟩, hunlock, h⟩ := bind_ok h
      cases h
      have hnoted := (unlock_reports hunlock).2
      rwa [Ctx.retryLater, show u.conn.established = s.conn.established from hopen] at hnoted
    next u _ hu =>
      rw [hu] at hopen
      obtain ⟨⟨closed, v⟩, hunlock, h⟩ := bind_ok h
      cases h
      have hnoted := (unlock_reports hunlock).2
      rwa [show u.conn.established = s.conn.established from hopen] at hnoted
  · dsimp only at h
    rw [streamOpen_refuses nonBlocking env (not_grants_of_locked hlocked (by simp))] at h
    cases h
    exact unnoted_refuse s _

end Contexts

section Groups

variable {g g' : Group} {token other : Token} {c c' : QuicConn}

def Silent (g g' : Group) : Prop := ∀ token c, g.state.conns.lookup token = some c →
  ∃ c', g'.state.conns.lookup token = some c' ∧ c'.established = c.established

theorem silent_of_eq (hconns : g'.state.conns = g.state.conns) : Silent g g' := by
  intro token c hc
  exact ⟨c, by rw [hconns]; exact hc, rfl⟩

theorem carries_silent : Carries Unnoted Silent where
  refl _ := silent_of_eq rfl
  trans h h' token c hc := by
    obtain ⟨c', hc', hflag⟩ := h token c hc
    obtain ⟨c'', hc'', hflag'⟩ := h' token c' hc'
    exact ⟨c'', hc'', hflag'.trans hflag⟩
  unparked _ _ := silent_of_eq rfl
  put := by
    intro g token c s hc hs other d hd
    by_cases ht : other = token
    · subst ht
      rw [hc] at hd
      cases hd
      exact ⟨s.conn, AList.lookup_insert _, hs⟩
    · exact ⟨d, (AList.lookup_insert_ne ht).trans hd, rfl⟩

theorem silent_register (q : Connection) (env : UnlockEnv) (g : Group) :
    Silent g (leftBy (Group.register q env g)) := by
  have hcases := register_cases g q env
  generalize Group.register q env g = r at hcases
  cases hcases with
  | hangs => exact silent_of_eq rfl
  | taken fresh tokenNext hnone hscid => exact silent_of_eq rfl
  | @fresh fresh tokenNext n b k closed s log hnone hscid hunlocked hheld hcont =>
    intro token c hc
    have hne : token ≠ fresh := by
      rintro rfl
      rw [hc] at hnone
      cases hnone
    exact ⟨c, (AList.lookup_insert_ne hne).trans hc, rfl⟩

theorem lookup_onConn_of_ne {f : Ctx → Rust (α × Ctx)} (hne : other ≠ token) :
    (leftBy (Group.onConn other f g)).state.conns.lookup token = g.state.conns.lookup token := by
  unfold Group.onConn
  split
  · rfl
  · split
    · rfl
    · exact AList.lookup_insert_ne (Ne.symm hne)

theorem noted_operation {f : Ctx → Rust (Except Error α × Ctx)} (hf : Notes f)
    (hc : g.state.conns.lookup token = some c) {x : Section (Except Error α)}
    (hx : x = do return (← Group.onConn other f).bind id) :
    ∃ c', (leftBy (x g)).state.conns.lookup token = some c' ∧
      ((other = token ∧ c.locker = .none ∧ ∃ r g', x g = .ok r g') →
        c'.established = (c.established || c'.wrapped.isEstablished)) ∧
      (¬ (other = token ∧ c.locker = .none ∧ ∃ r g', x g = .ok r g') →
        c'.established = c.established) := by
  subst hx
  rw [leftBy_bind fun a g ↦ rfl]
  by_cases ht : other = token
  · subst ht
    cases hrun : f (g.state.ctx c) with
    | error panic =>
      have hconn : Group.onConn other f g = .error panic g := by simp only [Group.onConn, hc, hrun]
      rw [hconn]
      refine ⟨c, hc, ?_, fun _ ↦ rfl⟩
      rintro ⟨-, -, r, g', hok⟩
      simp only [bind, EStateM.bind, hconn] at hok
      cases hok
    | ok r =>
      obtain ⟨r, s⟩ := r
      have hconn := onConn_of_some hc hrun
      obtain ⟨hnoted, hunnoted⟩ := hf _ _ _ hrun
      rw [hconn]
      refine ⟨s.conn, AList.lookup_insert _, fun h ↦ hnoted h.2.1, fun h ↦ hunnoted fun hfree ↦ ?_⟩
      exact h ⟨rfl, hfree, r, _, by rw [bind_of_ok hconn]; rfl⟩
  · exact ⟨c, (lookup_onConn_of_ne ht).trans hc, fun h ↦ absurd h.1 ht, fun _ ↦ rfl⟩

theorem onConn_unless_ok (token : Token) (f : Ctx → Rust (α × Ctx)) (g : Group) :
    (∃ a g', Group.onConn token f g = .ok (.ok a) g') ∨ leftBy (Group.onConn token f g) = g := by
  unfold Group.onConn
  split
  · exact .inr rfl
  · split
    · exact .inr rfl
    · exact .inl ⟨_, _, rfl⟩

theorem conns_of_unlockConn_error {ctx : LockContext} {env : UnlockEnv} {panic : Panic}
    (h : Group.unlockConn ctx env g = .error panic g') : g'.state.conns = g.state.conns := by
  let g₀ : Group := { g with state.unparkers := g.state.unparkers.erase ctx.token }
  have hcases := onConn_unless_ok ctx.token
    (fun s ↦ s.unlock ctx.lockCount ctx.sendDone env) g₀
  unfold Group.unlockConn at h
  dsimp only at h
  split at h
  · cases h
  next err g₁ hrun =>
    cases h
    rw [hrun] at hcases
    rcases hcases with ⟨closed, g₂, hok⟩ | hleft
    · cases hok
    · rw [show g' = g₀ from hleft]
  next panic g₁ hrun =>
    cases h
    rw [hrun] at hcases
    rcases hcases with ⟨closed, g₂, hok⟩ | hleft
    · cases hok
    · rw [show g' = g₀ from hleft]

theorem noted_unlockConn (hc : g.state.conns.lookup token = some c) (ctx : LockContext)
    (env : UnlockEnv) :
    ∃ c', (leftBy (Group.unlockConn ctx env g)).state.conns.lookup token = some c' ∧
      ((ctx.token = token ∧ ∃ closed g', Group.unlockConn ctx env g = .ok closed g') →
        c'.established = (c.established || c'.wrapped.isEstablished)) ∧
      (¬ (ctx.token = token ∧ ∃ closed g', Group.unlockConn ctx env g = .ok closed g') →
        c'.established = c.established) := by
  cases hrun : Group.unlockConn ctx env g with
  | error panic g' =>
    refine ⟨c, ?_, ?_, fun _ ↦ rfl⟩
    · rw [show (leftBy _).state.conns = g.state.conns from conns_of_unlockConn_error hrun]
      exact hc
    · rintro ⟨-, closed, g₁, hok⟩
      cases hok
  | ok closed g' =>
    obtain ⟨c₀, s, hc₀, hunlock, rfl⟩ := unlockConn_ok hrun
    by_cases ht : ctx.token = token
    · subst ht
      rw [hc] at hc₀
      cases hc₀
      exact ⟨s.conn, AList.lookup_insert _, fun _ ↦ (unlock_reports hunlock).2,
        fun h ↦ absurd ⟨rfl, closed, _, rfl⟩ h⟩
    · exact ⟨c, (AList.lookup_insert_ne (Ne.symm ht)).trans hc, fun h ↦ absurd h.1 ht, fun _ ↦ rfl⟩

end Groups

section Worlds

variable {v w : World} {token : Token} {c : QuicConn} {a : Action}

def Free (g : Group) (token : Token) : Prop :=
  ∃ c, g.state.conns.lookup token = some c ∧ c.locker = .none

/-- The step has an unlock of the connection in it: a guard of the connection is dropped, or an
operation that locks it for itself finds it free, and the step does not panic. -/
def Unlocks (w : World) (token : Token) : Action → Prop
  | .unlock guard sendDone env => guard.lock.token = token ∧
      ∃ closed g', Group.unlockConn { guard.lock with sendDone } env w.group = .ok closed g'
  | .close t app err reason env => t = token ∧ Free w.group token ∧
      ∃ r g', Group.close t app err reason env w.group = .ok r g'
  | .streamOpen t kind nonBlocking env => t = token ∧ Free w.group token ∧
      ∃ r g', Group.streamOpen t kind nonBlocking env w.group = .ok r g'
  | .streamShutdown t streamId err env => t = token ∧ Free w.group token ∧
      ∃ r g', Group.streamShutdown t streamId err env w.group = .ok r g'
  | _ => False

theorem free_iff {g : Group} (hc : g.state.conns.lookup token = some c) :
    Free g token ↔ c.locker = .none := by
  constructor
  · rintro ⟨c', hc', hfree⟩
    rw [hc] at hc'
    cases hc'
    exact hfree
  · exact fun hfree ↦ ⟨c, hc, hfree⟩

theorem silent_next {g : Group} (h : Performs w a g) (ha : takes w a ≠ some token)
    (hc : w.group.state.conns.lookup token = some c)
    (hsite : match a with
      | .unlock .. | .close .. | .streamOpen .. | .streamShutdown .. => False
      | _ => True) :
    ∃ c', g.state.conns.lookup token = some c' ∧ c'.established = c.established := by
  cases h with
  | rests => exact ⟨c, hc, rfl⟩
  | register q env => exact silent_register q env _ token c hc
  | lock t kind => exact carries_silent.operation (fun _ _ _ h ↦ unnoted_tryLock h) t _ token c hc
  | lockRecv t unparker =>
    exact carries_silent.lockRecv (fun _ _ _ h ↦ unnoted_tryLock h) t unparker _ token c hc
  | call guard call => exact carries_silent.derefMut (fun _ ↦ rfl) guard _ token c hc
  | takeConn t htakes =>
    have hne : token ≠ t := by
      rintro rfl
      exact ha htakes
    unfold Group.takeConn
    split
    · exact ⟨c, hc, rfl⟩
    · exact ⟨c, (AList.lookup_erase_ne hne).trans hc, rfl⟩
  | takeScid t q =>
    unfold Group.takeScid
    dsimp only
    split <;> exact ⟨c, hc, rfl⟩
  | poll env =>
    unfold Group.poll
    split <;> exact ⟨c, hc, rfl⟩
  | unlock | close | streamOpen | streamShutdown => exact hsite.elim

/-- A step takes note of what quiche says about a connection exactly if it unlocks it. -/
theorem next_notes (ha : takes w a ≠ some token) (hc : w.group.state.conns.lookup token = some c) :
    ∃ c', (w.next a).group.state.conns.lookup token = some c' ∧
      (Unlocks w token a → c'.established = (c.established || c'.wrapped.isEstablished)) ∧
      (¬ Unlocks w token a → c'.established = c.established) := by
  have hfree := free_iff hc
  cases a with
  | unlock guard sendDone env =>
    have hgroup : (w.next (.unlock guard sendDone env)).group =
        leftBy (Group.unlockConn { guard.lock with sendDone } env w.group) := by
      rw [World.next, run_group]
      intro w closed
      cases closed <;> rfl
    rw [hgroup]
    exact noted_unlockConn hc { guard.lock with sendDone } env
  | close t app err reason env =>
    rw [World.next, run_group fun _ _ ↦ rfl, Unlocks, hfree]
    exact noted_operation (notes_close app err reason env) hc rfl
  | streamOpen t kind nonBlocking env =>
    rw [World.next, run_group fun _ _ ↦ rfl, Unlocks, hfree]
    exact noted_operation (notes_streamOpen kind nonBlocking env) hc rfl
  | streamShutdown t streamId err env =>
    rw [World.next, run_group fun _ _ ↦ rfl, Unlocks, hfree]
    exact noted_operation (notes_streamClose streamId err env) hc rfl
  | connect | lock | call | deregister | poll | lookupScid | resume =>
    obtain ⟨c', hc', hflag⟩ := silent_next (performs_next w _) ha hc trivial
    exact ⟨c', hc', False.elim, fun _ ↦ hflag⟩

def Finds (w : World) (token : Token) (a : Action) : Prop :=
  Unlocks w token a ∧ ∃ c, (w.next a).group.state.conns.lookup token = some c ∧
    c.wrapped.isEstablished = true

theorem run_unfound (hc : v.group.state.conns.lookup token = some c)
    (h : Run step (fun w a ↦ (Legal w a ∧ takes w a ≠ some token) ∧ ¬ Finds w token a) v w) :
    ∃ c', w.group.state.conns.lookup token = some c' ∧ c'.established = c.established := by
  refine h.invariant (P := fun w ↦ ∃ c', w.group.state.conns.lookup token = some c' ∧
    c'.established = c.established) ⟨c, hc, rfl⟩ ?_
  intro w w' a hw ha hstep
  cases hstep
  obtain ⟨c', hc', hflag⟩ := hw
  obtain ⟨c'', hc'', hunlocks, hrests⟩ := next_notes ha.1.2 hc'
  refine ⟨c'', hc'', ?_⟩
  by_cases hu : Unlocks w token a
  · have hquiche : c''.wrapped.isEstablished = false := by
      rw [← Bool.not_eq_true]
      exact fun hquiche ↦ ha.2 ⟨hu, c'', hc'', hquiche⟩
    rw [hunlocks hu, hquiche, Bool.or_false, hflag]
  · rw [hrests hu, hflag]

theorem greets_self (token : Token) (isServer flag : Bool) : greets token isServer flag flag = [] := by
  cases flag <;> rfl

/-- From its registration on, a connection is reported as established once, when an unlock
first finds it so, and not at all if it was registered as established. -/
theorem established_reported_once (h : Run step Legal .initial v) :
    (∀ q env token g', Group.register q env v.group = .ok (.ok token) g' → ∃ news c',
      g'.state.history = v.group.state.history ++ .registered token :: news ∧
      g'.state.conns.lookup token = some c' ∧
      c'.established = (q.isEstablished || c'.wrapped.isEstablished) ∧
      greetingsOf token news = greets token q.isServer q.isEstablished c'.established) ∧
    (∀ token c w, v.group.state.conns.lookup token = some c →
      Run step (fun w a ↦ Legal w a ∧ takes w a ≠ some token) v w → ∃ c' news,
      w.group.state.conns.lookup token = some c' ∧
      w.group.state.history = v.group.state.history ++ news ∧
      greetingsOf token news = greets token c.wrapped.isServer c.established c'.established) ∧
    (∀ token c w, v.group.state.conns.lookup token = some c →
      Run step (fun w a ↦ (Legal w a ∧ takes w a ≠ some token) ∧ ¬ Finds w token a) v w →
      ∃ c' news, w.group.state.conns.lookup token = some c' ∧
      w.group.state.history = v.group.state.history ++ news ∧
      c'.established = c.established ∧ greetingsOf token news = []) ∧
    ∀ token c a, v.group.state.conns.lookup token = some c → takes v a ≠ some token →
      ∃ c' news, (v.next a).group.state.conns.lookup token = some c' ∧
      (v.next a).group.state.history = v.group.state.history ++ news ∧
      greetingsOf token news = greets token c.wrapped.isServer c.established c'.established ∧
      (Unlocks v token a → c'.established = (c.established || c'.wrapped.isEstablished)) ∧
      (¬ Unlocks v token a → c'.established = c.established) := by
  obtain ⟨hnamed, -⟩ := named_of_run h
  refine ⟨?_, ?_, ?_, ?_⟩
  · intro q env token g' hregister
    obtain ⟨news, c', hfollows, hc', hestablished, hgreets⟩ := follows_register hnamed hregister
    exact ⟨news, c', hfollows.history, hc', hestablished, hgreets⟩
  · intro token c w hc hrun
    obtain ⟨c', news, hc', hhistory, hlives⟩ := run_lives hnamed hc hrun
    exact ⟨c', news, hc', hhistory, hlives.greets⟩
  · intro token c w hc hrun
    obtain ⟨c', news, hc', hhistory, hlives⟩ :=
      run_lives hnamed hc (hrun.mono fun _ _ ha ↦ ha.1)
    obtain ⟨c'', hc'', hflag⟩ := run_unfound hc hrun
    rw [hc'] at hc''
    cases hc''
    refine ⟨c', news, hc', hhistory, hflag, ?_⟩
    rw [hlives.greets, hflag, greets_self]
  · intro token c a hc ha
    obtain ⟨c', news, hc', hhistory, hlives⟩ := next_lives hnamed ha hc
    obtain ⟨c'', hc'', hunlocks, hrests⟩ := next_notes ha hc
    rw [hc'] at hc''
    cases hc''
    exact ⟨c', news, hc', hhistory, hlives.greets, hunlocks, hrests⟩

def shaking : Connection :=
  { Script.connection ⟨true, [7], [], [], none⟩ with
    value := fun h q ↦
      match q with
      | .isEstablished => decide (h.length > 3)
      | q => Script.value ⟨true, [7], [], [], none⟩ h q }

def handshaking : World := World.initial.next (.connect shaking .still)

theorem established_reported_once_example :
    ∃ w before c' news, Run step Legal .initial w ∧
      w.group.state.history = handshaking.group.state.history ++ before ∧
      greetingsOf ⟨0⟩ before = [] ∧
      (w.next (.unlock firstGuard false .still)).group.state.conns.lookup ⟨0⟩ =
        some c' ∧ c'.established = true ∧
      (w.next (.unlock firstGuard false .still)).group.state.history =
        w.group.state.history ++ news ∧
      greetingsOf ⟨0⟩ news = [⟨⟨0⟩, .accept, true, false, 0⟩] := by
  have hconnect : Run step Legal .initial handshaking :=
    .one (i := .connect shaking .still) trivial rfl
  have hlock : Run step (fun w a ↦ (Legal w a ∧ takes w a ≠ some ⟨0⟩) ∧ ¬ Finds w ⟨0⟩ a)
      handshaking _ :=
    .one (i := .lock ⟨0⟩ .recv) ⟨⟨by simp [Legal], by simp [takes]⟩, fun hfinds ↦ hfinds.1⟩ rfl
  have hcall := hlock.tail (i := .call firstGuard .onTimeout)
    ⟨⟨List.mem_cons_self .., by simp [takes]⟩, by simp [Finds, Unlocks]⟩ rfl
  have hrun := hconnect.trans (hcall.mono fun _ _ ha ↦ ha.1.1)
  obtain ⟨c, before, hc, hbefore, hflag, hnone⟩ :=
    (established_reported_once hconnect).2.2.1 ⟨0⟩ _ _ rfl hcall
  obtain ⟨c', news, hc', hnews, hgreets, hunlocks, -⟩ :=
    (established_reported_once hrun).2.2.2 ⟨0⟩ c (.unlock firstGuard false .still) hc
      (by simp [takes])
  have hestablished : c'.established = true := by
    cases hc'
    rfl
  refine ⟨_, before, c', news, hrun, hbefore, hnone, hc', hestablished, hnews, ?_⟩
  rw [hgreets, hestablished, hflag]
  cases hc
  rfl

end Worlds

end ZeroRtt.Poll.Noting
