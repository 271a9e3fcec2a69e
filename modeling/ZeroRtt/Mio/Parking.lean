import ZeroRtt.Poll.Accepting

namespace ZeroRtt.Mio.Parking

open ZeroRtt.Lib.Panics ZeroRtt.Lib.Containers ZeroRtt.Lib.Runs
open ZeroRtt.Api.Types ZeroRtt.Api.Quiche ZeroRtt.Api.RetryToken ZeroRtt.Api.Handshakes
open ZeroRtt.Poll ZeroRtt.Poll.Conn ZeroRtt.Poll.Locking ZeroRtt.Poll.Sections
open ZeroRtt.Poll.Covering
open ZeroRtt.Poll.Chronicle (acts_next)
open ZeroRtt.Poll.Accepting (Datagram Job Stage Result Env Secure)

variable {Config : Type}

/-- The thread in `on_udp_recv`, with the parker that it waits on. An `unpark` leaves a
permit behind that the next `park` takes. The token of the connection that the thread tried
last, and whether it was unparked since then, are history variables: nothing reads them. -/
structure World where
  thread : Accepting.World
  unparker : Unparker
  permit : Bool
  asked : Option Token
  unparked : Bool

/-- A call of `on_udp_recv` makes a new parker; within a call datagrams are read one after
the other. -/
inductive Action (Config : Type)
  | other (a : Interleaving.Action)
  | enter (unparker : Unparker)
  | receive (buf : Bytes) (readSize : ℕ) (info : RecvInfo) (serving : Bool)
  | step (env : Env Config)
  | park

/-- The results on which the loop parks. -/
def Blocked : Except Error (Option (ℕ × SendInfo)) → Bool
  | .error .busy | .error .retry => true
  | _ => false

def Between : Stage → Bool
  | .idle => true
  | .returned _ r => !Blocked r
  | _ => false

/-- The unparker that is taken out, and called, when a guard is dropped. -/
def called (g : Group) (guard : Guard) : Option Unparker :=
  g.state.unparkers.lookup guard.lock.token

namespace World

def initial : World := ⟨.initial, ⟨0⟩, false, none, false⟩

def wake (w : World) (unparker : Option Unparker) : World :=
  if unparker = some w.unparker then { w with permit := true, unparked := true } else w

def other (w : World) (a : Interleaving.Action) : World :=
  let unparker := match a with
    | .unlock guard _ _ => called w.thread.base.group guard
    | _ => none
  { w with thread.base := w.thread.base.next a }.wake unparker

def advance (lib : Library Config) (w : World) (env : Env Config) : World :=
  let next := { w with thread := w.thread.advance lib env }
  match w.thread.stage with
  | .locking _ _ token => { next with asked := some token, unparked := false }
  | .dropping _ guard _ _ => next.wake (called w.thread.base.group guard)
  | _ => next

def park (fromSlice : Group.FromSlice) (w : World) : World :=
  match w.thread.stage with
  | .returned d r =>
    if Blocked r && w.permit then
      { w with permit := false, thread.stage := .start fromSlice d }
    else w
  | _ => w

def next (lib : Library Config) (fromSlice : Group.FromSlice) (w : World) : Action Config → World
  | .other a => w.other a
  | .enter unparker =>
    if Between w.thread.stage then
      ⟨{ w.thread with stage := .idle }, unparker, false, none, false⟩
    else w
  | .receive buf readSize info serving =>
    if Between w.thread.stage then
      { w with thread.stage := .start fromSlice ⟨buf, readSize, info, some w.unparker, serving⟩ }
    else w
  | .step env => w.advance lib env
  | .park => w.park fromSlice

end World

def step (lib : Library Config) (fromSlice : Group.FromSlice) (w : World) (a : Action Config) :
    Rust World := .ok (w.next lib fromSlice a)

def Prompt (v : AddressValidator) : Prop :=
  ∀ scid dcid newScid src err, v.mintRetryToken scid dcid newScid src = .ok (.error err) →
    err ≠ .busy ∧ err ≠ .retry

/-- Nobody but `on_udp_recv` gives an unparker to the group. -/
def Outside (w : World) (a : Interleaving.Action) : Prop :=
  Proper w.thread.base a ∧
    ∀ i unparker accepted env, a = .resume i unparker accepted env → unparker = none

def Permitted (w : World) : Action Config → Prop
  | .other a => Outside w a
  | .step env => Prompt env.acceptor.addressValidator
  | _ => True

section Unparkers

variable {α : Type} {g : Group} {b : Interleaving.World}

theorem unparkers_onConn {f : Ctx → Rust (α × Ctx)} (token : Token) (g : Group) :
    (leftBy (Group.onConn token f g)).state.unparkers = g.state.unparkers := by
  unfold Group.onConn
  split
  · rfl
  · split <;> rfl

theorem unparkers_operation {f : Ctx → Rust (Except Error α × Ctx)} (token : Token) (g : Group) :
    (leftBy ((do return (← Group.onConn token f).bind id : Section (Except Error α)) g)).state.unparkers =
      g.state.unparkers := by
  rw [leftBy_bind fun _ _ ↦ rfl]
  exact unparkers_onConn token g

theorem unparkers_derefMut (guard : Guard) (c : Call) (g : Group) :
    (leftBy (Group.derefMut guard c g)).state.unparkers = g.state.unparkers := by
  have hsame := Walks.Carries.leftBy_deref guard g
  unfold Group.derefMut
  cases hderef : Group.deref guard g with
  | error panic g' =>
    rw [hderef] at hsame
    obtain rfl : g' = g := hsame
    simp only [bind, EStateM.bind, hderef, leftBy]
  | ok q g' =>
    rw [hderef] at hsame
    obtain rfl : g' = g := hsame
    rw [bind_of_ok hderef, leftBy_bind fun _ _ ↦ rfl]
    exact unparkers_onConn _ _

theorem unparkers_lockRecv (token : Token) (g : Group) :
    (leftBy (Group.lockRecv token none g)).state.unparkers = g.state.unparkers := by
  have hlock := unparkers_onConn (f := Group.tryLock .recv) token g
  unfold Group.lockRecv
  generalize Group.onConn token (Group.tryLock .recv) g = r at hlock
  cases r with
  | error panic g' => exact hlock
  | ok a g' => rcases a with err | err | guard <;> exact hlock

theorem unparkers_register (q : Connection) (env : UnlockEnv) (g : Group) :
    (leftBy (Group.register q env g)).state.unparkers = g.state.unparkers := by
  have hcases := register_cases g q env
  generalize Group.register q env g = r at hcases ⊢
  cases hcases <;> rfl

theorem unparkers_takeConn (token : Token) (g : Group) :
    (leftBy (Group.takeConn token g)).state.unparkers = g.state.unparkers := by
  unfold Group.takeConn
  split <;> rfl

theorem unparkers_takeScid (token : Token) (q : Connection) (g : Group) :
    (leftBy (Group.takeScid token q g)).state.unparkers = g.state.unparkers := by
  unfold Group.takeScid
  dsimp only
  split <;> rfl

theorem unparkers_unlockConn (ctx : LockContext) (env : UnlockEnv) (g : Group) :
    (leftBy (Group.unlockConn ctx env g)).state.unparkers = g.state.unparkers.erase ctx.token := by
  have hrun := unparkers_onConn (f := fun s ↦ s.unlock ctx.lockCount ctx.sendDone env) ctx.token
    { g with state.unparkers := g.state.unparkers.erase ctx.token }
  simp only [Group.unlockConn]
  split
  next hconn => rwa [hconn] at hrun
  next hconn => rwa [hconn] at hrun
  next hconn => rwa [hconn] at hrun

theorem unparkers_next {a : Interleaving.Action}
    (hunlock : ∀ guard sendDone env, a ≠ .unlock guard sendDone env)
    (hresume : ∀ i unparker accepted env, a = .resume i unparker accepted env → unparker = none) :
    (b.next a).group.state.unparkers = b.group.state.unparkers := by
  have hacts := acts_next b a
  generalize (b.next a).group = g at hacts ⊢
  cases hacts with
  | rests => rfl
  | register q env => exact unparkers_register q env _
  | lock token kind => exact unparkers_operation token _
  | @lockRecv i accepted env token unparker =>
    obtain rfl := hresume i unparker accepted env rfl
    exact unparkers_lockRecv token _
  | call guard c => exact unparkers_derefMut guard c _
  | unlock guard sendDone env => exact absurd rfl (hunlock guard sendDone env)
  | takeConn token => exact unparkers_takeConn token _
  | takeScid token q => exact unparkers_takeScid token q _
  | close token => exact unparkers_operation token _
  | streamOpen token => exact unparkers_operation token _
  | streamShutdown token => exact unparkers_operation token _
  | poll env =>
    unfold Group.poll
    cases b.group.state.readiness.poll [] defaultReleaseTimerThreshold env <;> rfl

end Unparkers

section Guards

variable {α : Type} {b : Interleaving.World} {guard : Guard}

theorem mem_guards_run {x : Section α} {k : Interleaving.World → α → Interleaving.World}
    (hk : ∀ b a, guard ∈ b.guards → guard ∈ (k b a).guards) (h : guard ∈ b.guards) :
    guard ∈ (b.run x k).guards := by
  unfold Interleaving.World.run
  cases x b.group with
  | ok a g => exact hk _ a h
  | error panic g => exact h

theorem mem_guards_hold (b : Interleaving.World) (r : Except Error Guard) (h : guard ∈ b.guards) :
    guard ∈ (b.hold r).guards := by
  cases r with
  | ok guard' => exact List.mem_cons_of_mem _ h
  | error err => exact h

theorem mem_guards_takeConn (token : Token) (h : guard ∈ b.guards) :
    guard ∈ (b.takeConn token).guards := by
  refine mem_guards_run ?_ h
  intro b r hmem
  cases r <;> exact hmem

theorem mem_guards_resume (unparker : Option Unparker) (accepted : Option Connection)
    (env : UnlockEnv) (p : Interleaving.Pending) (h : guard ∈ b.guards) :
    guard ∈ (b.resume unparker accepted env p).guards := by
  cases p with
  | takeConn token => exact mem_guards_takeConn token h
  | takeScid token q => exact mem_guards_run (fun _ _ hmem ↦ hmem) h
  | lockRecv dcid token =>
    refine mem_guards_run ?_ h
    intro b r hmem
    rcases r with err | guard'
    · cases err <;> exact hmem
    · exact mem_guards_hold b (.ok guard') hmem
  | handshake dcid =>
    cases accepted with
    | none => exact h
    | some q => exact mem_guards_run (fun _ _ hmem ↦ hmem) h

theorem mem_guards_next {a : Interleaving.Action}
    (hunlock : ∀ sendDone env, a ≠ .unlock guard sendDone env) (h : guard ∈ b.guards) :
    guard ∈ (b.next a).guards := by
  cases a with
  | lock token kind => exact mem_guards_run mem_guards_hold h
  | unlock guard' sendDone env =>
    have hne : guard ≠ guard' := by
      rintro rfl
      exact hunlock sendDone env rfl
    refine mem_guards_run (b := { b with guards := b.guards.erase guard' }) ?_
      ((List.mem_erase_of_ne hne).mpr h)
    intro b closed hmem
    cases closed <;> exact hmem
  | deregister token => exact mem_guards_takeConn token h
  | lookupScid dcid =>
    refine mem_guards_run ?_ h
    intro b r hmem
    cases r <;> exact hmem
  | resume i unparker accepted env =>
    simp only [Interleaving.World.next]
    split
    next p _ =>
      exact mem_guards_resume (b := { b with pending := b.pending.eraseIdx i }) unparker accepted
        env p h
    next => exact h
  | _ => exact mem_guards_run (fun _ _ hmem ↦ hmem) h

end Guards

section Stages

variable {α : Type} {w : Accepting.World} {lib : Library Config} {fromSlice : Group.FromSlice}
  {u : Unparker} {job : Job} {env : Env Config}

def datagram : Stage → Option Datagram
  | .finding job _ | .locking job _ _ | .receiving job _ _ _ | .dropping job _ _ _
  | .takingConn job _ _ | .takingScid job _ _ _ | .handshaking job | .registering job _
  | .sending job _ | .transmitting job _ => some job.toDatagram
  | .returned d _ => some d
  | .idle | .unreachable _ | .panicked _ => none

def Given (u : Unparker) (stage : Stage) : Prop :=
  ∀ d, datagram stage = some d → d.unparker = some u

def Unblocked (stage : Stage) : Prop := ∀ d r, stage = .returned d r → Blocked r = false

theorem given_fail (h : job.unparker = some u) (again : Option Token) (err : Error) :
    Given u (Stage.fail job again err) := by
  intro d hd
  unfold Stage.fail at hd
  split at hd
  · split at hd <;> cases hd <;> exact h
  · cases hd
  · cases hd
  · cases hd
    exact h

theorem given_proceed (h : job.unparker = some u) (now : Instant) (r : Result) :
    Given u (Stage.proceed job now r) := by
  unfold Stage.proceed
  split
  · split <;> rintro d ⟨⟩ <;> exact h
  · exact given_fail h _ _
  · rintro d ⟨⟩
    exact h
  · rintro d ⟨⟩
    exact h
  · rintro d ⟨⟩
    exact h

theorem given_start {d : Datagram} (h : d.unparker = some u) :
    Given u (Stage.start fromSlice d) := by
  unfold Stage.start
  split
  · rintro d ⟨⟩
  · split <;> rintro d ⟨⟩ <;> exact h

theorem given_handshake (h : job.unparker = some u) :
    Given u (Accepting.World.handshake lib env job) := by
  unfold Accepting.World.handshake
  split <;> rintro d ⟨⟩ <;> exact h

theorem Given.moves {g g' : Group} {stage stage' : Stage} (h : Given u stage)
    (hmoves : Accepting.Moves lib env g stage g' stage') : Given u stage' := by
  cases hmoves with
  | unknown => exact given_fail (h _ rfl) _ _
  | refused => exact given_fail (h _ rfl) _ _
  | dropped => exact given_proceed (h _ rfl) _ _
  | gone => exact given_proceed (h _ rfl) _ _
  | forgot => exact given_proceed (h _ rfl) _ _
  | skips => exact given_proceed (h _ rfl) _ _
  | answered hrun => exact hrun ▸ given_handshake (h _ rfl)
  | panics =>
    rintro d ⟨⟩
  | rests => exact h
  | _ =>
    rintro d ⟨⟩
    exact h _ rfl

theorem unblocked_fail {again : Option Token} {err : Error}
    (h : err ≠ .retry) (hbusy : again = none → err ≠ .busy) :
    Unblocked (Stage.fail job again err) := by
  unfold Stage.fail
  split
  · split <;> rintro d r ⟨⟩
    rfl
  · rintro d r ⟨⟩
  · rintro d r ⟨⟩
  next hnotFound hbusy' hretry' =>
    rintro d r ⟨⟩
    cases err with
    | busy =>
      cases again with
      | none => exact absurd rfl (hbusy rfl)
      | some t => exact absurd rfl (hbusy' t rfl)
    | retry => exact absurd rfl h
    | _ => rfl

theorem unblocked_proceed (now : Instant) (r : Result) :
    Unblocked (Stage.proceed job now r) := by
  unfold Stage.proceed
  split
  · split <;> rintro d r ⟨⟩
    rfl
  · exact unblocked_fail (by simp) (by simp)
  · rintro d r ⟨⟩
    rfl
  · rintro d r ⟨⟩
    rfl
  next r hbusy hretry =>
    rintro d r ⟨⟩
    rcases r with err | r
    · cases err with
      | busy => exact absurd rfl hbusy
      | retry => exact absurd rfl hretry
      | _ => rfl
    · rfl

theorem unblocked_start (d : Datagram) : Unblocked (Stage.start fromSlice d) := by
  unfold Stage.start
  split
  · rintro d r ⟨⟩
  · split <;> rintro d r ⟨⟩
    rfl

theorem unblocked_handshake (hv : Prompt env.acceptor.addressValidator) :
    Unblocked (Accepting.World.handshake lib env job) := by
  unfold Accepting.World.handshake
  split
  · rintro d r ⟨⟩
  next err buf hrun =>
    rintro d r ⟨⟩
    cases handshake_answers hrun with
    | fails => rfl
    | invalid => rfl
    | unminted hmint =>
      obtain ⟨hbusy, hretry⟩ := hv _ _ _ _ _ hmint
      cases err with
      | busy => exact absurd rfl hbusy
      | retry => exact absurd rfl hretry
      | _ => rfl
  · rintro d r ⟨⟩
    rfl
  · rintro d r ⟨⟩

theorem moves_blocked {g g' : Group} {guards : List Guard} (h : Covered g guards)
    (hv : Prompt env.acceptor.addressValidator) {stage stage' : Stage}
    (hmoves : Accepting.Moves lib env g stage g' stage') :
    stage' = stage ∨ Unblocked stage' ∨ ∃ job token c, stage = .locking job none token ∧
      stage' = .returned job.toDatagram (.error .busy) ∧
      g.state.conns.lookup token = some c ∧ c.locker ≠ .none ∧
      ∀ u, job.unparker = some u → g'.state.unparkers.lookup token = some u := by
  cases hmoves with
  | unknown => exact .inr (.inl (unblocked_fail (by simp) (by simp)))
  | @refused _ job again token err hrun =>
    rcases Accepting.lockRecv_error h hrun with rfl | ⟨rfl, ⟨c, hc, hlocked⟩, hunparkers⟩
    · exact .inr (.inl (unblocked_fail (by simp) (by simp)))
    · cases again with
      | none => exact .inr (.inr ⟨job, token, c, rfl, rfl, hc, hlocked, hunparkers⟩)
      | some t => exact .inr (.inl (unblocked_fail (by simp) (by simp)))
  | dropped => exact .inr (.inl (unblocked_proceed _ _))
  | gone => exact .inr (.inl (unblocked_proceed _ _))
  | forgot => exact .inr (.inl (unblocked_proceed _ _))
  | skips => exact .inr (.inl (unblocked_proceed _ _))
  | answered hrun => exact .inr (.inl (hrun ▸ unblocked_handshake hv))
  | rests => exact .inl rfl
  | _ => exact .inr (.inl fun d r heq ↦ by cases heq)

end Stages

section Waiting

variable {w : World} {lib : Library Config} {fromSlice : Group.FromSlice} {token : Token}

/-- The thread will be unparked: a guard of the connection is outstanding and the group has
the unparker, or the unpark has come since the connection was tried. -/
def Expects (w : World) (token : Token) : Prop :=
  (∃ guard ∈ w.thread.base.guards, guard.lock.token = token) ∧
      w.thread.base.group.state.unparkers.lookup token = some w.unparker ∨
    w.unparked = true ∧ w.permit = true

structure Attentive (w : World) : Prop where
  secure : Secure w.thread
  given : Given w.unparker w.thread.stage
  never_retry : ∀ d, w.thread.stage ≠ .returned d (.error .retry)
  expects : ∀ d, w.thread.stage = .returned d (.error .busy) →
    ∃ token, w.asked = some token ∧ Expects w token

theorem Attentive.of_unblocked (h : Secure w.thread) (hgiven : Given w.unparker w.thread.stage)
    (hstage : Unblocked w.thread.stage) : Attentive w := by
  refine ⟨h, hgiven, ?_, ?_⟩
  · intro d heq
    cases hstage d _ heq
  · intro d heq
    cases hstage d _ heq

@[simp] theorem wake_thread (u : Option Unparker) : (w.wake u).thread = w.thread := by
  unfold World.wake
  split <;> rfl

@[simp] theorem wake_unparker (u : Option Unparker) : (w.wake u).unparker = w.unparker := by
  unfold World.wake
  split <;> rfl

@[simp] theorem wake_asked (u : Option Unparker) : (w.wake u).asked = w.asked := by
  unfold World.wake
  split <;> rfl

theorem wake_self : (w.wake (some w.unparker)).unparked = true ∧
    (w.wake (some w.unparker)).permit = true := by
  simp only [World.wake, if_true, and_self]

theorem wake_again (u : Option Unparker) (h : w.unparked = true ∧ w.permit = true) :
    (w.wake u).unparked = true ∧ (w.wake u).permit = true := by
  unfold World.wake
  split
  · exact ⟨rfl, rfl⟩
  · exact h

theorem Expects.other (h : Expects w token) {a : Interleaving.Action}
    (ha : Outside w a) : Expects (w.other a) token := by
  rcases h with ⟨⟨guard, hguard, htoken⟩, hunparker⟩ | hunparked
  · by_cases hunlock : ∃ guard' sendDone env, a = .unlock guard' sendDone env
    · obtain ⟨guard', sendDone, env, rfl⟩ := hunlock
      by_cases hsame : guard'.lock.token = token
      · have hcalled : called w.thread.base.group guard' = some w.unparker := by
          unfold called
          rw [hsame, hunparker]
        right
        simp only [World.other, hcalled]
        exact wake_self
      · left
        have hne : token ≠ guard'.lock.token := fun heq ↦ hsame heq.symm
        simp only [World.other, wake_thread, wake_unparker]
        refine ⟨⟨guard, mem_guards_next ?_ hguard, htoken⟩, ?_⟩
        · rintro sendDone' env' ⟨⟩
          exact hsame htoken
        · rw [Interleaving.World.next, Interleaving.run_group, unparkers_unlockConn]
          · exact (AList.lookup_erase_ne hne).trans hunparker
          · intro b closed
            cases closed <;> rfl
    · left
      simp only [World.other, wake_thread, wake_unparker]
      refine ⟨⟨guard, mem_guards_next ?_ hguard, htoken⟩, ?_⟩
      · intro sendDone env heq
        exact hunlock ⟨guard, sendDone, env, heq⟩
      · rw [unparkers_next (fun guard' sendDone env heq ↦ hunlock ⟨guard', sendDone, env, heq⟩) ha.2]
        exact hunparker
  · exact .inr (wake_again _ hunparked)

theorem Attentive.other (h : Attentive w) {a : Interleaving.Action}
    (ha : Outside w a) : Attentive (w.other a) := by
  have hstage : (w.other a).thread.stage = w.thread.stage := by
    simp only [World.other, wake_thread]
  refine ⟨?_, ?_, ?_, ?_⟩
  · simp only [World.other, wake_thread]
    exact (Covered.next h.secure ha.1).covered
  · rw [hstage]
    simp only [World.other, wake_unparker]
    exact h.given
  · rw [hstage]
    exact h.never_retry
  · intro d heq
    rw [hstage] at heq
    obtain ⟨token, hasked, hexpects⟩ := h.expects d heq
    refine ⟨token, ?_, hexpects.other ha⟩
    simp only [World.other, wake_asked]
    exact hasked

theorem Covered.exists_guard {g : Group} {guards : List Guard} {c : QuicConn}
    (h : Covered g guards) (hc : g.state.conns.lookup token = some c) (hlocked : c.locker ≠ .none) :
    ∃ guard ∈ guards, guard.lock.token = token := by
  obtain ⟨htoken, held, hheld, hmem⟩ := h token c hc
  have hne : held ≠ [] := fun hnil ↦ hlocked (hheld.locker_eq_none_iff.mpr hnil)
  obtain ⟨guard, hguard⟩ := List.exists_mem_of_ne_nil _ hne
  exact ⟨guard, (hmem guard hguard).1, (hheld.lock guard hguard).1.trans htoken⟩

theorem mem_guards_advance {w : Accepting.World} {env : Env Config} {guard : Guard}
    (h : guard ∈ w.base.guards) : guard ∈ (w.advance lib env).base.guards := by
  have hrun : ∀ {α : Type} {stage : Stage} {x : Section α} {k : α → Stage},
      guard ∈ (Accepting.World.run ⟨w.base, stage⟩ x k).base.guards := by
    intro α stage x k
    unfold Accepting.World.run
    split
    · exact h
    · exact List.mem_append_right _ h
  unfold Accepting.World.advance
  split
  all_goals first | exact hrun | exact h

theorem advance_thread (w : World) (env : Env Config) :
    (w.advance lib env).thread = w.thread.advance lib env ∧
      (w.advance lib env).unparker = w.unparker := by
  unfold World.advance
  dsimp only
  split
  · exact ⟨rfl, rfl⟩
  · exact ⟨wake_thread _, wake_unparker _⟩
  · exact ⟨rfl, rfl⟩

theorem Attentive.refused (h : Attentive w) {env : Env Config}
    (hv : Prompt env.acceptor.addressValidator) (hstage : ∀ d r, w.thread.stage ≠ .returned d r)
    {d : Datagram} {r : Except Error (Option (ℕ × SendInfo))}
    (hreturned : (w.advance lib env).thread.stage = .returned d r) (hr : Blocked r = true) :
    r = .error .busy ∧ ∃ job token c, w.thread.stage = .locking job none token ∧
      w.thread.base.group.state.conns.lookup token = some c ∧ c.locker ≠ .none ∧
      (w.advance lib env).asked = some token ∧
      (w.advance lib env).thread.base.group.state.unparkers.lookup token = some w.unparker := by
  have hthread : (w.advance lib env).thread = w.thread.advance lib env := (advance_thread w env).1
  have hmoves : Accepting.Moves lib env _ _ _ _ := Accepting.moves_advance w.thread env
  rw [hthread] at hreturned
  rcases moves_blocked h.secure hv hmoves with
    hrests | hunblocked | ⟨job, token, c, hlocking, hbusy, hc, hlocked, hunparker⟩
  · exact absurd (hrests.symm.trans hreturned) (hstage d r)
  · rw [hunblocked d r hreturned] at hr
    cases hr
  · rw [hreturned] at hbusy
    cases hbusy
    have hu : job.unparker = some w.unparker := h.given _ (by rw [hlocking]; rfl)
    refine ⟨rfl, job, token, c, hlocking, hc, hlocked, ?_, ?_⟩
    · simp only [World.advance, hlocking]
    · rw [hthread]
      exact hunparker _ hu

theorem Attentive.advance (h : Attentive w) {env : Env Config}
    (hv : Prompt env.acceptor.addressValidator) : Attentive (w.advance lib env) := by
  by_cases hstage : ∃ d r, w.thread.stage = .returned d r
  · obtain ⟨d, r, hstage⟩ := hstage
    have hrests : w.advance lib env = w := by
      simp only [World.advance, Accepting.World.advance, hstage]
    rw [hrests]
    exact h
  · have hnot : ∀ d r, w.thread.stage ≠ .returned d r := fun d r heq ↦ hstage ⟨d, r, heq⟩
    obtain ⟨hthread, hunparker⟩ : (w.advance lib env).thread = _ ∧ _ := advance_thread w env
    refine ⟨?_, ?_, ?_, ?_⟩
    · rw [hthread]
      exact h.secure.advance env
    · rw [hthread, hunparker]
      exact h.given.moves (Accepting.moves_advance w.thread env)
    · intro d heq
      cases (h.refused hv hnot heq rfl).1
    · intro d heq
      obtain ⟨-, job, token, c, hlocking, hc, hlocked, hasked, hlookup⟩ :=
        h.refused hv hnot heq rfl
      obtain ⟨guard, hguard, htoken⟩ := Covered.exists_guard h.secure hc hlocked
      rw [hlocking] at hguard
      refine ⟨token, hasked, .inl ⟨⟨guard, ?_, htoken⟩, ?_⟩⟩
      · rw [hthread]
        exact mem_guards_advance hguard
      · rw [hlookup, hunparker]

theorem secure_start {w : Accepting.World} (h : Secure w) (hguards : w.stage.guards = [])
    (d : Datagram) : Secure { w with stage := .start fromSlice d } := by
  unfold Secure at h ⊢
  rw [Accepting.guards_start]
  rwa [hguards] at h

theorem guards_of_between {stage : Stage} (h : Between stage = true) : stage.guards = [] := by
  cases stage with
  | idle => rfl
  | returned d r => rfl
  | _ => cases h

theorem Attentive.next (h : Attentive w) {a : Action Config} (ha : Permitted w a) :
    Attentive (w.next lib fromSlice a) := by
  cases a with
  | other a => exact h.other ha
  | enter unparker =>
    simp only [World.next]
    split
    next hbetween =>
      refine .of_unblocked ?_ (fun d hd ↦ by cases hd) fun d r heq ↦ by cases heq
      have hsecure := h.secure
      unfold Secure at hsecure ⊢
      rwa [guards_of_between hbetween] at hsecure
    next => exact h
  | receive buf readSize info serving =>
    simp only [World.next]
    split
    next hbetween =>
      exact .of_unblocked (secure_start h.secure (guards_of_between hbetween) _)
        (given_start rfl) (unblocked_start _)
    next => exact h
  | step env => exact h.advance ha
  | park =>
    simp only [World.next, World.park]
    split
    next d r hstage =>
      split
      · have hguards : w.thread.stage.guards = [] := by rw [hstage]; rfl
        exact .of_unblocked (secure_start h.secure hguards d)
          (given_start (h.given d (by rw [hstage]; rfl))) (unblocked_start d)
      · exact h
    next => exact h

theorem attentive_of_run (h : Run (step lib fromSlice) Permitted .initial w) : Attentive w := by
  refine h.invariant (P := Attentive) ?_ ?_
  · exact .of_unblocked Accepting.secure_initial (fun d hd ↦ by cases hd) fun d r heq ↦ by cases heq
  · intro w w' a hw ha hstep
    cases hstep
    exact hw.next ha

/-- The loop is never left waiting: where it comes to park it has left its unparker in the
critical section that found the connection locked, and from then on a guard of this
connection is outstanding until the unpark comes. It never parks for any other reason. -/
theorem receive_loop_expects_unpark (h : Run (step lib fromSlice) Permitted .initial w) :
    (∀ (env : Env Config) d, Permitted w (.step env) → (∀ d r, w.thread.stage ≠ .returned d r) →
      (w.advance lib env).thread.stage = .returned d (.error .busy) →
      ∃ job token c, w.thread.stage = .locking job none token ∧
        w.thread.base.group.state.conns.lookup token = some c ∧ c.locker ≠ .none ∧
        (w.advance lib env).asked = some token ∧
        (w.advance lib env).thread.base.group.state.unparkers.lookup token = some w.unparker) ∧
    (∀ d, w.thread.stage = .returned d (.error .busy) →
      ∃ token, w.asked = some token ∧ Expects w token) ∧
    ∀ d, w.thread.stage ≠ .returned d (.error .retry) := by
  have hw := attentive_of_run h
  refine ⟨?_, hw.expects, hw.never_retry⟩
  intro env d hv hstage hreturned
  exact (hw.refused hv hstage hreturned rfl).2

theorem receive_loop_expects_unpark_example :
    ∃ w d, Run (step Accepting.openLibrary Accepting.firstPacket) Permitted .initial w ∧
      w.thread.stage = .returned d (.error .busy) ∧ w.asked = some ⟨0⟩ ∧ Expects w ⟨0⟩ := by
  have h : Run (step Accepting.openLibrary Accepting.firstPacket) Permitted .initial _ :=
    .one (i := .other (.connect (Script.connection ⟨false, [7], [], [], none⟩)
      .still)) (by exact ⟨⟨trivial, by simp⟩, by simp⟩) rfl
  have hlock := h.tail (i := .other (.lock ⟨0⟩ .recv))
    (by exact ⟨⟨by simp [Interleaving.Legal], by simp⟩, by simp⟩) rfl
  have henter := hlock.tail (i := .enter ⟨1⟩) (by trivial) rfl
  have hreceive := henter.tail (i := .receive [0] 1 exampleRecvInfo false) (by trivial) rfl
  have hprompt : Prompt Accepting.trustful.acceptor.addressValidator := by
    intro scid dcid newScid src err hmint
    cases hmint
  have hfind := hreceive.tail (i := .step Accepting.trustful) (by exact hprompt) rfl
  have hbusy := hfind.tail (i := .step Accepting.trustful) (by exact hprompt) rfl
  obtain ⟨token, hasked, hexpects⟩ := (receive_loop_expects_unpark hbusy).2.1 _ rfl
  cases hasked
  exact ⟨_, _, hbusy, rfl, rfl, hexpects⟩

end Waiting

end ZeroRtt.Mio.Parking
