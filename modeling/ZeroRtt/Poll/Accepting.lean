import ZeroRtt.Poll.Chronicle
import ZeroRtt.Poll.Covering

namespace ZeroRtt.Poll.Accepting

open ZeroRtt.Lib.Panics ZeroRtt.Lib.Containers ZeroRtt.Lib.Runs
open ZeroRtt.Api.Types ZeroRtt.Api.Quiche ZeroRtt.Api.Handshakes
open ZeroRtt.Poll.Schedule ZeroRtt.Poll.Conn ZeroRtt.Poll.Locking ZeroRtt.Poll.Sections
open ZeroRtt.Poll.Walks ZeroRtt.Poll.Covering
open ZeroRtt.Poll.Interleaving (run_group)
open ZeroRtt.Poll.Chronicle (Sectionwise)

/-- A datagram in its buffer, and how it is to be received: with an acceptor, or only by
the connection that it is sent to. -/
structure Datagram where
  buf : Bytes
  recvSize : ℕ
  info : RecvInfo
  unparker : Option Unparker
  serving : Bool

def Datagram.reply (d : Datagram) (now : Instant) : SendInfo :=
  ⟨d.info.toAddr, d.info.fromAddr, now⟩

structure Job extends Datagram where
  header : Header

/-- What a thread has in hand when it drops a guard: the answer of quiche to a packet, or
the result of `send`. -/
inductive Result
  | received (again : Option Token) (token : Token) (r : Except QuicheError ℕ)
  | sent (r : Except Error (ℕ × SendInfo))

/-- Where a thread is that receives a datagram, by the critical section that comes next.
The second call of `recv_with_connection_id` has the token that `register` returned. -/
inductive Stage
  | idle
  | finding (job : Job) (again : Option Token)
  | locking (job : Job) (again : Option Token) (token : Token)
  | receiving (job : Job) (again : Option Token) (token : Token) (guard : Guard)
  | dropping (job : Job) (guard : Guard) (sendDone : Bool) (r : Result)
  | takingConn (job : Job) (token : Token) (r : Result)
  | takingScid (job : Job) (token : Token) (conn : Connection) (r : Result)
  | handshaking (job : Job)
  | registering (job : Job) (conn : Connection)
  | sending (job : Job) (token : Token)
  | transmitting (job : Job) (guard : Guard)
  | returned (d : Datagram) (r : Except Error (Option (ℕ × SendInfo)))
  | unreachable (msg : String)
  | panicked (panic : Panic)

namespace Stage

def guards : Stage → List Guard
  | .receiving _ _ _ guard | .dropping _ guard _ _ | .transmitting _ guard => [guard]
  | _ => []

def fail (job : Job) : Option Token → Error → Stage
  | none, .notFound =>
    if job.serving then .handshaking job else .returned job.toDatagram (.error .notFound)
  | some _, .busy | some _, .retry =>
    .unreachable "Newly registered connections should be idle"
  | _, err => .returned job.toDatagram (.error err)

def proceed (job : Job) (now : Instant) : Result → Stage
  | .received again token (.ok _) =>
    if job.serving then .sending job (again.getD token) else .returned job.toDatagram (.ok none)
  | .received again _ (.error err) => fail job again (.quiche err)
  | .sent (.error .busy) | .sent (.error .retry) =>
    .returned job.toDatagram (.ok (some (0, job.reply now)))
  | .sent r => .returned job.toDatagram (r.map some)

def start (fromSlice : Group.FromSlice) (d : Datagram) : Stage :=
  match slice d.buf 0 d.recvSize with
  | .error panic => .panicked panic
  | .ok packet =>
    match fromSlice packet with
    | .error err => .returned d (.error (.quiche err))
    | .ok header => .finding ⟨d, header⟩ none

end Stage

variable {Config : Type}

structure Env (Config : Type) where
  unlock : UnlockEnv
  now : Instant
  acceptor : Acceptor Config

structure World where
  base : Interleaving.World
  stage : Stage

inductive Action (Config : Type)
  | other (a : Interleaving.Action)
  | start (d : Datagram)
  | step (env : Env Config)

namespace World

variable {α : Type}

def initial : World := ⟨.initial, .idle⟩

/-- The thread runs a critical section and goes on. If it panics then its guards are
dropped while it unwinds. -/
def run (w : World) (x : Section α) (k : α → Stage) : World :=
  match x w.base.group with
  | .ok a group => ⟨{ w.base with group }, k a⟩
  | .error panic group =>
    ⟨{ w.base with group, guards := w.stage.guards ++ w.base.guards }, .panicked panic⟩

def handshake (lib : Library Config) (env : Env Config) (job : Job) : Stage :=
  match env.acceptor.handshake lib job.header job.buf job.recvSize job.info with
  | .error panic => .panicked panic
  | .ok (.error err, buf) => .returned { job.toDatagram with buf } (.error err)
  | .ok (.ok (.handshake sendSize), buf) =>
    .returned { job.toDatagram with buf } (.ok (some (sendSize, job.reply env.now)))
  | .ok (.ok (.accept conn), buf) => .registering { job with buf } conn

def advance (lib : Library Config) (w : World) (env : Env Config) : World :=
  match w.stage with
  | .finding job again => w.run (Group.lookupScid job.header.dcid) fun r ↦
    match r with
    | .ok token => .locking job again token
    | .error err => .fail job again err
  | .locking job again token =>
    w.run (Group.lockRecv token (if again.isSome then none else job.unparker)) fun r ↦
      match r with
      | .ok guard => .receiving job again token guard
      | .error err => .fail job again err
  | .receiving job again token guard =>
    w.run (Group.derefMut guard (.recv (job.buf.take job.recvSize) job.info)) fun r ↦
      .dropping job guard false (.received again token r)
  | .dropping job guard sendDone r =>
    { w with stage := .idle }.run (Group.unlockConn { guard.lock with sendDone } env.unlock)
      fun closed ↦ if closed then .takingConn job guard.lock.token r else .proceed job env.now r
  | .takingConn job token r => w.run (Group.takeConn token) fun conn ↦
    match conn with
    | .ok conn => .takingScid job token conn r
    | .error _ => .proceed job env.now r
  | .takingScid job token conn r => w.run (Group.takeScid token conn) fun _ ↦
    .proceed job env.now r
  | .handshaking job => { w with stage := handshake lib env job }
  | .registering job conn => w.run (Group.register conn env.unlock) fun r ↦
    match r with
    | .ok token => .finding job (some token)
    | .error err => .returned job.toDatagram (.error err)
  | .sending job token => w.run (Group.lock token .recv) fun r ↦
    match r with
    | .ok guard => .transmitting job guard
    | .error err => .proceed job env.now (.sent (.error err))
  | .transmitting job guard =>
    w.run (transmit guard job.buf.length env.now) fun (sendDone, r) ↦
      .dropping job guard sendDone (.sent r)
  | _ => w

def next (lib : Library Config) (fromSlice : Group.FromSlice) (w : World) :
    Action Config → World
  | .other a => { w with base := w.base.next a }
  | .start d =>
    match w.stage with
    | .idle | .returned .. => { w with stage := .start fromSlice d }
    | _ => w
  | .step env => w.advance lib env

end World

def step (lib : Library Config) (fromSlice : Group.FromSlice) (w : World) (a : Action Config) :
    Rust World := .ok (w.next lib fromSlice a)

def Permitted (w : World) : Action Config → Prop
  | .other a => Proper w.base a
  | _ => True

variable {α : Type} {w : World} {lib : Library Config} {fromSlice : Group.FromSlice}

section Guards

@[simp] theorem guards_fail (job : Job) (again : Option Token) (err : Error) :
    (Stage.fail job again err).guards = [] := by
  unfold Stage.fail
  split
  · split <;> rfl
  · rfl
  · rfl
  · rfl

@[simp] theorem guards_proceed (job : Job) (now : Instant) (r : Result) :
    (Stage.proceed job now r).guards = [] := by
  unfold Stage.proceed
  split
  · split <;> rfl
  · exact guards_fail ..
  · rfl
  · rfl
  · rfl

@[simp] theorem guards_start (d : Datagram) : (Stage.start fromSlice d).guards = [] := by
  unfold Stage.start
  split
  · rfl
  · split <;> rfl

@[simp] theorem guards_handshake (env : Env Config) (job : Job) :
    (World.handshake lib env job).guards = [] := by
  unfold World.handshake
  split <;> rfl

def Secure (w : World) : Prop := Covered w.base.group (w.stage.guards ++ w.base.guards)

theorem secure_run {x : Section α} {k : α → Stage}
    (hok : ∀ a g', x w.base.group = .ok a g' → Covered g' ((k a).guards ++ w.base.guards))
    (herror : ∀ panic g', x w.base.group = .error panic g' →
      Covered g' (w.stage.guards ++ w.base.guards)) : Secure (w.run x k) := by
  unfold World.run
  cases hrun : x w.base.group with
  | ok a g' => exact hok a g' hrun
  | error panic g' => exact herror panic g' hrun

theorem secure_of_leftBy {x : Section α} {k : α → Stage}
    (hx : Covered (leftBy (x w.base.group)) (w.stage.guards ++ w.base.guards))
    (hk : ∀ a, (k a).guards = w.stage.guards) : Secure (w.run x k) := by
  refine secure_run ?_ ?_
  · intro a g' hrun
    rw [hk]
    rwa [hrun] at hx
  · intro panic g' hrun
    rwa [hrun] at hx

theorem covered_bind {β : Type} {g : Group} {guards : List Guard} {x : Section α}
    {f : α → Section β} (hx : Covered (leftBy (x g)) guards)
    (hf : ∀ a g, Covered g guards → Covered (leftBy (f a g)) guards) :
    Covered (leftBy ((x >>= f) g)) guards := by
  cases hrun : x g with
  | ok a g' =>
    rw [hrun] at hx
    rw [bind_of_ok hrun]
    exact hf a g' hx
  | error panic g' =>
    rw [hrun] at hx
    simp only [bind, EStateM.bind, hrun]
    exact hx

theorem covered_transmit {g : Group} {guards : List Guard} (h : Covered g guards) (guard : Guard)
    (len : ℕ) (now : Instant) : Covered (leftBy (transmit guard len now g)) guards := by
  unfold transmit
  refine covered_bind ?_ fun conn g₁ h₁ ↦ ?_
  · rw [Carries.leftBy_deref]
    exact h
  · split
    · exact h₁
    · refine covered_bind (h₁.derefMut guard _).1 fun _ g₂ h₂ ↦ ?_
      refine covered_bind (h₂.derefMut guard _).1 fun r g₃ h₃ ↦ ?_
      split <;> exact h₃

theorem Secure.locking (h : Secure w) (job : Job) (again : Option Token) (token : Token)
    (unparker : Option Unparker) (hnil : w.stage.guards = []) :
    Secure (w.run (Group.lockRecv token unparker) fun r ↦
      match r with
      | .ok guard => .receiving job again token guard
      | .error err => .fail job again err) := by
  unfold Secure at h
  rw [hnil, List.nil_append] at h
  obtain ⟨r, g', hrun, -, hcovered⟩ := h.tryLock (show LocKind.recv ≠ .none by simp)
    (by simp) token
  unfold World.run
  rcases r with err | err | guard
  · simp only [Group.lockRecv, hrun, Secure, guards_fail]
    exact hcovered.1
  · cases unparker with
    | none =>
      simp only [Group.lockRecv, hrun, Secure, guards_fail]
      exact hcovered.1
    | some unparker =>
      simp only [Group.lockRecv, hrun, Secure, guards_fail]
      exact hcovered.1.congr rfl fun _ hguard ↦ hguard
  · simp only [Group.lockRecv, hrun]
    exact hcovered.1

theorem Secure.sending (h : Secure w) (job : Job) (token : Token) (now : Instant)
    (hnil : w.stage.guards = []) :
    Secure (w.run (Group.lock token .recv) fun r ↦
      match r with
      | .ok guard => .transmitting job guard
      | .error err => .proceed job now (.sent (.error err))) := by
  unfold Secure at h
  rw [hnil, List.nil_append] at h
  obtain ⟨r, g', hrun, -, hcovered⟩ := h.tryLock (show LocKind.recv ≠ .none by simp)
    (by simp) token
  have hlock : Group.lock token .recv w.base.group = .ok (r.bind id) g' := by
    simp only [Group.lock, bind, EStateM.bind, hrun]
    rfl
  unfold World.run
  rw [hlock]
  rcases r with err | err | guard
  · simp only [Except.bind, Secure, guards_proceed]
    exact hcovered.1
  · simp only [Except.bind, Secure, guards_proceed, id]
    exact hcovered.1
  · exact hcovered.1

theorem Secure.dropping (h : Secure w) {guard : Guard} (hguards : w.stage.guards = [guard])
    (sendDone : Bool) (env : UnlockEnv) {k : Bool → Stage} (hk : ∀ closed, (k closed).guards = []) :
    Secure ({ w with stage := .idle }.run
      (Group.unlockConn { guard.lock with sendDone } env) k) := by
  unfold Secure at h
  rw [hguards] at h
  have hunlock : Covered _ w.base.guards ∧ _ :=
    h.unlockConn { guard.lock with sendDone } env ?_ ?_
  · exact secure_of_leftBy hunlock.1 hk
  · intro guard' hmem _
    rcases List.mem_cons.mp hmem with rfl | hmem
    · exact .inl rfl
    · exact .inr hmem
  · intro guard' hmem hne
    rcases List.mem_cons.mp hmem with rfl | hmem
    · exact absurd rfl hne
    · exact hmem

theorem Secure.advance (h : Secure w) (env : Env Config) : Secure (w.advance lib env) := by
  unfold World.advance
  split
  next job again hstage =>
    refine secure_of_leftBy ?_ ?_
    · unfold Group.lookupScid
      cases w.base.group.scids.lookup job.header.dcid <;> exact h
    · intro r
      rw [hstage]
      cases r with
      | ok token => rfl
      | error err => exact guards_fail ..
  next job again token hstage => exact h.locking job again token _ (by rw [hstage]; rfl)
  next job again token guard hstage =>
    refine secure_of_leftBy (Covered.derefMut h guard _).1 fun r ↦ ?_
    rw [hstage]
    rfl
  next job guard sendDone r hstage =>
    refine h.dropping (by rw [hstage]; rfl) sendDone env.unlock ?_
    intro closed
    cases closed with
    | true => rfl
    | false => exact guards_proceed ..
  next job token r hstage =>
    refine secure_of_leftBy ?_ ?_
    · unfold Group.takeConn
      cases hc : w.base.group.state.conns.lookup token with
      | none => exact h
      | some c => exact (Covered.takeConn h token).1
    · intro conn
      rw [hstage]
      cases conn with
      | ok conn => rfl
      | error err => exact guards_proceed ..
  next job token conn r hstage =>
    refine secure_of_leftBy (Covered.congr h ?_ fun _ hguard ↦ hguard) ?_
    · unfold Group.takeScid
      dsimp only
      split <;> rfl
    · intro _
      rw [hstage]
      exact guards_proceed ..
  next job hstage =>
    unfold Secure at h ⊢
    rw [guards_handshake]
    rwa [hstage] at h
  next job conn hstage =>
    refine secure_of_leftBy (Covered.register h (register_cases ..)).1 ?_
    intro r
    rw [hstage]
    cases r <;> rfl
  next job token hstage => exact h.sending job token env.now (by rw [hstage]; rfl)
  next job guard hstage =>
    refine secure_of_leftBy (covered_transmit h guard _ _) ?_
    rintro ⟨sendDone, r⟩
    rw [hstage]
    rfl
  next => exact h

theorem Secure.next (h : Secure w) {a : Action Config} (ha : Permitted w a) :
    Secure (w.next lib fromSlice a) := by
  cases a with
  | other a => exact (Covered.next h ha).covered
  | start d =>
    simp only [World.next]
    split
    next hstage =>
      unfold Secure at h ⊢
      rw [guards_start]
      rwa [hstage] at h
    next hstage =>
      unfold Secure at h ⊢
      rw [guards_start]
      rwa [hstage] at h
    next => exact h
  | step env => exact h.advance env

end Guards

section Routes

variable {g g' : Group}

/-- A source id leads to the connection that it led to before, or to one that is not
locked. -/
def Leads (g g' : Group) : Prop :=
  ∀ id token, g'.scids.lookup id = some token → g.scids.lookup id = some token ∨
    ∀ c, g'.state.conns.lookup token = some c → c.locker = .none

theorem Leads.of_scids_eq (h : g'.scids = g.scids) : Leads g g' := by
  intro id token hid
  rw [h] at hid
  exact .inl hid

theorem carries_scids : Carries (fun _ _ ↦ True) fun g g' ↦ g'.scids = g.scids where
  refl _ := rfl
  trans h h' := h'.trans h
  unparked _ _ := rfl
  put _ _ := rfl

theorem Leads.register {q : Connection} {env : UnlockEnv}
    {r : EStateM.Result Panic Group (Except Error Token)} (hr : Registers g q env r) :
    Leads g (leftBy r) := by
  cases hr with
  | hangs => exact .of_scids_eq rfl
  | taken token tokenNext hnone hscid =>
    intro id t hid
    by_cases heq : id = q.sourceId
    · subst heq
      obtain rfl : token = t := Option.some.inj ((AList.lookup_insert _).symm.trans hid)
      refine .inr fun c hc ↦ ?_
      cases hnone.symm.trans hc
    · exact .inl ((AList.lookup_insert_ne heq).symm.trans hid)
  | @fresh token tokenNext n b k closed s log hnone hscid hunlocked hheld hcont =>
    intro id t hid
    by_cases heq : id = q.sourceId
    · subst heq
      obtain rfl : token = t := Option.some.inj ((AList.lookup_insert _).symm.trans hid)
      refine .inr fun c hc ↦ ?_
      obtain rfl : s.conn = c := Option.some.inj ((AList.lookup_insert _).symm.trans hc)
      exact hheld.locker_eq_none_iff.mpr rfl
    · exact .inl ((AList.lookup_insert_ne heq).symm.trans hid)

theorem leads_takeScid (token : Token) (conn : Connection) (g : Group) :
    Leads g (leftBy (Group.takeScid token conn g)) := by
  have hleads : Leads g { g with scids := g.scids.erase conn.sourceId } := by
    intro id t hid
    by_cases heq : id = conn.sourceId
    · subst heq
      cases (AList.lookup_erase _ _).symm.trans hid
    · exact .inl ((AList.lookup_erase_ne heq).symm.trans hid)
  unfold Group.takeScid
  dsimp only
  split <;> exact hleads

theorem leads_operation {f : Ctx → Rust (Except Error α × Ctx)} (token : Token) (g : Group) :
    Leads g (leftBy ((do return (← Group.onConn token f).bind id : Section (Except Error α)) g)) :=
  .of_scids_eq (carries_scids.operation (fun _ _ _ _ ↦ trivial) token g)

theorem sectionwise_leads : Sectionwise (fun _ ↦ True) Leads where
  refl _ := .of_scids_eq rfl
  register q env g := .register (register_cases g q env)
  lock token _ g _ := leads_operation token g
  lockRecv token unparker g :=
    .of_scids_eq (carries_scids.lockRecv (fun _ _ _ _ ↦ trivial) token unparker g)
  call guard _ g := .of_scids_eq (carries_scids.derefMut (fun _ ↦ trivial) guard g)
  unlock _ _ g := .of_scids_eq (carries_scids.unlockConn (fun _ _ _ _ ↦ trivial) g)
  takeConn token g := by
    unfold Group.takeConn
    cases g.state.conns.lookup token <;> exact .of_scids_eq rfl
  takeScid := leads_takeScid
  close token _ _ _ _ g := leads_operation token g
  streamOpen token _ _ _ g := leads_operation token g
  streamShutdown token _ _ _ g := leads_operation token g

theorem leads_next (w : Interleaving.World) (a : Interleaving.Action) :
    Leads w.group (w.next a).group := by
  by_cases hpoll : ∃ env, a = .poll env
  · obtain ⟨env, rfl⟩ := hpoll
    rw [Interleaving.World.next, run_group fun _ _ ↦ rfl]
    unfold Group.poll
    cases w.group.state.readiness.poll [] defaultReleaseTimerThreshold env <;>
      exact .of_scids_eq rfl
  · exact sectionwise_leads.next (fun env heq ↦ hpoll ⟨env, heq⟩) fun _ _ _ ↦ trivial

end Routes

section Moves

inductive Moves (lib : Library Config) (env : Env Config) :
    Group → Stage → Group → Stage → Prop
  | found {g : Group} {job : Job} {again : Option Token} {token : Token} :
      g.scids.lookup job.header.dcid = some token →
      Moves lib env g (.finding job again) g (.locking job again token)
  | unknown {g : Group} {job : Job} {again : Option Token} :
      g.scids.lookup job.header.dcid = none →
      Moves lib env g (.finding job again) g (.fail job again .notFound)
  | locked {g g' : Group} {job : Job} {again : Option Token} {token : Token} {guard : Guard} :
      Moves lib env g (.locking job again token) g' (.receiving job again token guard)
  | refused {g g' : Group} {job : Job} {again : Option Token} {token : Token} {err : Error} :
      Group.lockRecv token (if again.isSome then none else job.unparker) g = .ok (.error err) g' →
      Moves lib env g (.locking job again token) g' (.fail job again err)
  | received {g g' : Group} {job : Job} {again : Option Token} {token : Token} {guard : Guard}
      {r : Except QuicheError ℕ} :
      Moves lib env g (.receiving job again token guard) g'
        (.dropping job guard false (.received again token r))
  | closed {g g' : Group} {job : Job} {guard : Guard} {sendDone : Bool} {r : Result} :
      Moves lib env g (.dropping job guard sendDone r) g' (.takingConn job guard.lock.token r)
  | dropped {g g' : Group} {job : Job} {guard : Guard} {sendDone : Bool} {r : Result} :
      Moves lib env g (.dropping job guard sendDone r) g' (.proceed job env.now r)
  | took {g g' : Group} {job : Job} {token : Token} {r : Result} {conn : Connection} :
      Moves lib env g (.takingConn job token r) g' (.takingScid job token conn r)
  | gone {g g' : Group} {job : Job} {token : Token} {r : Result} :
      Moves lib env g (.takingConn job token r) g' (.proceed job env.now r)
  | forgot {g g' : Group} {job : Job} {token : Token} {r : Result} {conn : Connection} :
      Moves lib env g (.takingScid job token conn r) g' (.proceed job env.now r)
  | answered {g : Group} {job : Job} {stage : Stage} : World.handshake lib env job = stage →
      Moves lib env g (.handshaking job) g stage
  | registered {g g' : Group} {job : Job} {conn : Connection} {token : Token} :
      Group.register conn env.unlock g = .ok (.ok token) g' →
      Moves lib env g (.registering job conn) g' (.finding job (some token))
  | sends {g g' : Group} {job : Job} {token : Token} {guard : Guard} :
      Moves lib env g (.sending job token) g' (.transmitting job guard)
  | skips {g g' : Group} {job : Job} {token : Token} {err : Error} :
      Moves lib env g (.sending job token) g' (.proceed job env.now (.sent (.error err)))
  | transmitted {g g' : Group} {job : Job} {guard : Guard} {sendDone : Bool}
      {r : Except Error (ℕ × SendInfo)} :
      Moves lib env g (.transmitting job guard) g' (.dropping job guard sendDone (.sent r))
  | panics {g g' : Group} {stage : Stage} {panic : Panic} :
      Moves lib env g stage g' (.panicked panic)
  | rests {g : Group} {stage : Stage} : Moves lib env g stage g stage

theorem moves_run {x : Section α} {k : α → Stage} {env : Env Config} {stage : Stage}
    (hk : ∀ a g', x w.base.group = .ok a g' → Moves lib env w.base.group stage g' (k a)) :
    Moves lib env w.base.group stage (w.run x k).base.group (w.run x k).stage := by
  unfold World.run
  cases hrun : x w.base.group with
  | ok a g' => exact hk a g' hrun
  | error panic g' => exact .panics

theorem moves_advance (w : World) (env : Env Config) :
    Moves lib env w.base.group w.stage (w.advance lib env).base.group
      (w.advance lib env).stage := by
  cases hstage : w.stage with
  | finding job again =>
    simp only [World.advance, hstage]
    refine moves_run fun r g' hrun ↦ ?_
    cases hid : w.base.group.scids.lookup job.header.dcid with
    | none =>
      simp only [Group.lookupScid, hid] at hrun
      cases hrun
      exact .unknown hid
    | some token =>
      simp only [Group.lookupScid, hid] at hrun
      cases hrun
      exact .found hid
  | locking job again token =>
    simp only [World.advance, hstage]
    refine moves_run fun r g' hrun ↦ ?_
    cases r with
    | ok guard => exact .locked
    | error err => exact .refused hrun
  | receiving job again token guard =>
    simp only [World.advance, hstage]
    exact moves_run fun _ _ _ ↦ .received
  | dropping job guard sendDone r =>
    simp only [World.advance, hstage]
    refine moves_run (w := { w with stage := .idle }) fun closed g' _ ↦ ?_
    cases closed with
    | true => exact .closed
    | false => exact .dropped
  | takingConn job token r =>
    simp only [World.advance, hstage]
    refine moves_run fun conn g' _ ↦ ?_
    cases conn with
    | ok conn => exact .took
    | error err => exact .gone
  | takingScid job token conn r =>
    simp only [World.advance, hstage]
    exact moves_run fun _ _ _ ↦ .forgot
  | handshaking job =>
    simp only [World.advance, hstage]
    exact .answered rfl
  | registering job conn =>
    simp only [World.advance, hstage]
    refine moves_run fun r g' hrun ↦ ?_
    cases r with
    | ok token => exact .registered hrun
    | error err =>
      have hcases := register_cases w.base.group conn env.unlock
      rw [hrun] at hcases
      cases hcases
  | sending job token =>
    simp only [World.advance, hstage]
    refine moves_run fun r g' _ ↦ ?_
    cases r with
    | ok guard => exact .sends
    | error err => exact .skips
  | transmitting job guard =>
    simp only [World.advance, hstage]
    exact moves_run fun _ _ _ ↦ .transmitted
  | _ =>
    simp only [World.advance, hstage]
    exact .rests

end Moves

section Idling

/-- `quiche::accept` gives a connection the source id that it is called with. -/
def KeepsSourceId (lib : Library Config) : Prop :=
  ∀ {scid odcid localAddr peer config conn},
    lib.accept scid odcid localAddr peer config = .ok conn → conn.sourceId = scid

/-- The connection that the thread is about to lock after `register`. -/
def target (w : World) : Option Token :=
  match w.stage with
  | .finding job (some _) => w.base.group.scids.lookup job.header.dcid
  | .locking _ (some _) token => some token
  | _ => none

/-- Nobody else locks the connection that the thread is about to lock after `register`. -/
def Undisturbed (w : World) : Action Config → Prop
  | .other a => ∀ token, target w = some token → tries w.base a ≠ some token
  | _ => True

structure Sound (w : World) : Prop where
  secure : Secure w
  unlocked : ∀ token c, target w = some token →
    w.base.group.state.conns.lookup token = some c → c.locker = .none
  accepted : ∀ job conn, w.stage = .registering job conn → conn.sourceId = job.header.dcid
  reachable : ∀ msg, w.stage ≠ .unreachable msg

def Plain : Stage → Prop
  | .finding _ (some _) | .locking _ (some _) _ | .registering .. | .unreachable _ => False
  | _ => True

theorem Sound.of_plain (h : Secure w) (hplain : Plain w.stage) : Sound w := by
  have htarget : target w = none := by
    unfold target
    split
    next hstage =>
      rw [hstage] at hplain
      cases hplain
    next hstage =>
      rw [hstage] at hplain
      cases hplain
    next => rfl
  refine ⟨h, ?_, ?_, ?_⟩
  · intro token c ht
    rw [htarget] at ht
    cases ht
  · intro job conn hstage
    rw [hstage] at hplain
    cases hplain
  · intro msg hstage
    rw [hstage] at hplain
    cases hplain

theorem plain_fail (job : Job) {again : Option Token} {err : Error}
    (h : again = none ∨ err ≠ .busy ∧ err ≠ .retry) : Plain (Stage.fail job again err) := by
  unfold Stage.fail
  split
  · split <;> trivial
  · rcases h with h | h
    · cases h
    · exact absurd rfl h.1
  · rcases h with h | h
    · cases h
    · exact absurd rfl h.2
  · trivial

theorem plain_proceed (job : Job) (now : Instant) (r : Result) :
    Plain (Stage.proceed job now r) := by
  unfold Stage.proceed
  split
  · split <;> trivial
  · exact plain_fail job (.inr ⟨by simp, by simp⟩)
  · trivial
  · trivial
  · trivial

theorem plain_start (d : Datagram) : Plain (Stage.start fromSlice d) := by
  unfold Stage.start
  split
  · trivial
  · split <;> trivial

theorem handshake_cases (hlib : KeepsSourceId lib) (env : Env Config) (job : Job) :
    Plain (World.handshake lib env job) ∨
      ∃ buf conn, World.handshake lib env job = .registering { job with buf } conn ∧
        conn.sourceId = job.header.dcid := by
  unfold World.handshake
  split
  · exact .inl trivial
  · exact .inl trivial
  · exact .inl trivial
  next conn buf hrun =>
    refine .inr ⟨buf, conn, rfl, ?_⟩
    cases handshake_answers hrun with
    | accepts haccept => exact hlib haccept

theorem Sound.other (h : Sound w) {a : Interleaving.Action} (ha : Proper w.base a)
    (hu : ∀ token, target w = some token → tries w.base a ≠ some token) :
    Sound { w with base := w.base.next a } := by
  obtain ⟨hcovered, heases⟩ := Covered.next h.secure ha
  have hstays : ∀ token c, target w = some token →
      (w.base.next a).group.state.conns.lookup token = some c → c.locker = .none := by
    intro token c ht hc
    by_contra hlocked
    obtain ⟨c₀, hc₀, hlocked₀⟩ := heases token c hc hlocked (hu token ht)
    exact hlocked₀ (h.unlocked token c₀ ht hc₀)
  refine ⟨hcovered, ?_, h.accepted, h.reachable⟩
  intro token c ht hc
  cases hstage : w.stage with
  | finding job again =>
    cases again with
    | none =>
      simp only [target, hstage] at ht
      cases ht
    | some t =>
      simp only [target, hstage] at ht
      rcases leads_next w.base a _ _ ht with hold | hfree
      · exact hstays token c (by simp only [target, hstage, hold]) hc
      · exact hfree c hc
  | locking job again t =>
    have hsame : target { w with base := w.base.next a } = target w := by
      simp only [target, hstage]
      cases again <;> rfl
    exact hstays token c (hsame.symm.trans ht) hc
  | _ =>
    simp only [target, hstage] at ht
    cases ht

theorem registered_unlocked {g g' : Group} {q : Connection} {env : UnlockEnv} {token : Token}
    (h : Group.register q env g = .ok (.ok token) g') :
    g'.scids.lookup q.sourceId = some token ∧
      ∀ c, g'.state.conns.lookup token = some c → c.locker = .none := by
  have hcases := register_cases g q env
  rw [h] at hcases
  cases hcases with
  | @fresh token tokenNext n b k closed s log hnone hscid hunlocked hheld hcont =>
    refine ⟨AList.lookup_insert _, fun c hc ↦ ?_⟩
    obtain rfl : s.conn = c := Option.some.inj ((AList.lookup_insert _).symm.trans hc)
    exact hheld.locker_eq_none_iff.mpr rfl

theorem lockRecv_error {g g' : Group} {guards : List Guard} (h : Covered g guards) {token : Token}
    {unparker : Option Unparker} {err : Error}
    (hrun : Group.lockRecv token unparker g = .ok (.error err) g') :
    err = .notFound ∨ err = .busy ∧
      (∃ c, g.state.conns.lookup token = some c ∧ c.locker ≠ .none) ∧
      ∀ u, unparker = some u → g'.state.unparkers.lookup token = some u := by
  obtain ⟨r, g₁, hlock, -, hr⟩ :=
    h.tryLock (show LocKind.recv ≠ .none by simp) (by simp) token
  rcases r with err' | err' | guard
  · simp only [Group.lockRecv, hlock] at hrun
    cases hrun
    exact .inl hr.2
  · obtain ⟨-, rfl, hlocked⟩ := hr
    cases unparker with
    | none =>
      simp only [Group.lockRecv, hlock] at hrun
      cases hrun
      exact .inr ⟨rfl, hlocked, fun u hu ↦ by cases hu⟩
    | some unparker =>
      simp only [Group.lockRecv, hlock] at hrun
      cases hrun
      refine .inr ⟨rfl, hlocked, ?_⟩
      rintro u ⟨⟩
      exact AList.lookup_insert _
  · simp only [Group.lockRecv, hlock] at hrun
    cases hrun

theorem Sound.advance (hlib : KeepsSourceId lib) (h : Sound w) (env : Env Config) :
    Sound (w.advance lib env) := by
  have hsecure : Secure (w.advance lib env) := h.secure.advance env
  have hmoves : Moves lib env _ _ _ _ := moves_advance w env
  generalize w.advance lib env = w' at hsecure hmoves ⊢
  obtain ⟨⟨g', guards', pending'⟩, stage'⟩ := w'
  generalize hstage : w.stage = stage at hmoves
  cases hmoves with
  | @found job again token hid =>
    cases again with
    | none => exact .of_plain hsecure trivial
    | some t =>
      have htarget : target w = some token := by simp only [target, hstage, hid]
      refine ⟨hsecure, ?_, fun _ _ heq ↦ (by cases heq), fun _ heq ↦ (by cases heq)⟩
      rintro token' c ⟨⟩ hc
      exact h.unlocked token c htarget hc
  | @unknown job again hid => exact .of_plain hsecure (plain_fail job (.inr ⟨by simp, by simp⟩))
  | @refused _ job again token err hrun =>
    refine .of_plain hsecure (plain_fail job ?_)
    rcases lockRecv_error h.secure hrun with rfl | ⟨rfl, ⟨c, hc, hlocked⟩, -⟩
    · exact .inr ⟨by simp, by simp⟩
    · cases again with
      | none => exact .inl rfl
      | some t =>
        have htarget : target w = some token := by simp only [target, hstage]
        exact absurd (h.unlocked token c htarget hc) hlocked
  | dropped => exact .of_plain hsecure (plain_proceed ..)
  | gone => exact .of_plain hsecure (plain_proceed ..)
  | forgot => exact .of_plain hsecure (plain_proceed ..)
  | skips => exact .of_plain hsecure (plain_proceed ..)
  | @answered job _ hrun =>
    subst hrun
    rcases handshake_cases hlib env job with hplain | ⟨buf, conn, hrun, hid⟩
    · exact .of_plain hsecure hplain
    · rw [hrun] at hsecure ⊢
      refine ⟨hsecure, fun _ _ ht ↦ (by cases ht), ?_, fun _ heq ↦ (by cases heq)⟩
      rintro job' conn' ⟨⟩
      exact hid
  | @registered _ job conn token hrun =>
    obtain ⟨hlookup, hfree⟩ := registered_unlocked hrun
    refine ⟨hsecure, ?_, fun _ _ heq ↦ (by cases heq), fun _ heq ↦ (by cases heq)⟩
    intro token' c ht hc
    simp only [target] at ht
    rw [← h.accepted job conn hstage, hlookup] at ht
    cases ht
    exact hfree c hc
  | rests =>
    subst hstage
    exact ⟨hsecure, h.unlocked, h.accepted, h.reachable⟩
  | _ => exact .of_plain hsecure trivial

theorem Sound.next (hlib : KeepsSourceId lib) (h : Sound w) {a : Action Config}
    (ha : Permitted w a) (hu : Undisturbed w a) : Sound (w.next lib fromSlice a) := by
  cases a with
  | other a => exact h.other ha hu
  | start d =>
    have hsecure : Secure (w.next lib fromSlice (.start d)) := h.secure.next ha
    simp only [World.next] at hsecure ⊢
    split at hsecure
    · exact .of_plain hsecure (plain_start d)
    · exact .of_plain hsecure (plain_start d)
    · exact h
  | step env => exact h.advance hlib env

theorem secure_initial : Secure .initial := by
  intro token c hc
  have hnone : Interleaving.World.initial.group.state.conns.lookup token = none :=
    AList.lookup_empty token
  cases hnone.symm.trans hc

theorem sound_of_run (hlib : KeepsSourceId lib)
    (h : Run (step lib fromSlice) (fun w a ↦ Permitted w a ∧ Undisturbed w a) .initial w) :
    Sound w := by
  apply h.invariant (P := Sound) (.of_plain secure_initial trivial)
  intro w w' a hw ha hstep
  cases hstep
  exact hw.next hlib ha.1 ha.2

theorem advance_refused {job : Job} {t token : Token} {c : QuicConn}
    (hstage : w.stage = .locking job (some t) token)
    (hc : w.base.group.state.conns.lookup token = some c) (hlocked : c.locker ≠ .none)
    (env : Env Config) : ∃ msg, (w.advance lib env).stage = .unreachable msg := by
  have hg : ¬ Grants c .recv := by
    rintro (hnone | ⟨-, hkind⟩)
    · exact hlocked hnone
    · cases hkind
  have hrun := onConn_of_some hc (tryLock_refuses (s := w.base.group.state.ctx c) hg)
  simp only [World.advance, hstage, World.run, Group.lockRecv, Option.isSome_some, if_true, hrun]
  exact ⟨_, rfl⟩

/-- A thread that locks the connection in between drives the first one into the arm that
is taken for unreachable. -/
theorem Sound.disturbed (h : Sound w) {a : Interleaving.Action} (ha : Proper w.base a)
    {token : Token} (htarget : target w = some token) (htries : tries w.base a = some token)
    (env : Env Config) :
    ∃ w' msg, Run (step lib fromSlice) (fun _ a ↦ a = .step env) (w.next lib fromSlice (.other a)) w' ∧
      w'.stage = .unreachable msg := by
  obtain ⟨hscids, c, hc, hlocked⟩ := Covered.next_locked h.secure ha htries
  cases hstage : w.stage with
  | finding job again =>
    cases again with
    | none =>
      simp only [target, hstage] at htarget
      cases htarget
    | some t =>
      simp only [target, hstage] at htarget
      have hid : (w.base.next a).group.scids.lookup job.header.dcid = some token := by
        rw [hscids, htarget]
      have hfound : (w.next lib fromSlice (.other a)).advance lib env =
          ⟨w.base.next a, .locking job (some t) token⟩ := by
        simp only [World.advance, World.next, hstage, World.run, Group.lookupScid, hid]
      obtain ⟨msg, hmsg⟩ : ∃ msg, (World.advance lib ⟨w.base.next a, .locking job (some t) token⟩
          env).stage = .unreachable msg := advance_refused rfl hc hlocked env
      have hfind : Run (step lib fromSlice) (fun _ a ↦ a = .step env)
          (w.next lib fromSlice (.other a)) _ := .one rfl (congrArg Except.ok hfound)
      exact ⟨_, msg, hfind.tail rfl rfl, hmsg⟩
  | locking job again t =>
    cases again with
    | none =>
      simp only [target, hstage] at htarget
      cases htarget
    | some t' =>
      simp only [target, hstage] at htarget
      cases htarget
      have hnext : (w.next lib fromSlice (.other a)).stage = .locking job (some t') token := hstage
      obtain ⟨msg, hmsg⟩ : ∃ msg, ((w.next lib fromSlice (.other a)).advance lib env).stage =
          .unreachable msg := advance_refused hnext hc hlocked env
      exact ⟨_, msg, .one rfl rfl, hmsg⟩
  | _ =>
    simp only [target, hstage] at htarget
    cases htarget

/-- As long as nobody locks a new connection between `register` and the lock that follows
it, this lock is granted. The first step that does otherwise leads to the panic. -/
theorem newly_registered_idle (hlib : KeepsSourceId lib)
    (h : Run (step lib fromSlice) (fun w a ↦ Permitted w a ∧ Undisturbed w a) .initial w) :
    (∀ msg, w.stage ≠ .unreachable msg) ∧
    (∀ job t token, w.stage = .locking job (some t) token →
      ∀ g', Group.lockRecv token none w.base.group ≠ .ok (.error .busy) g') ∧
    ∀ a : Action Config, Permitted w a → ¬ Undisturbed w a → ∀ env, ∃ w' msg,
      Run (step lib fromSlice) (fun _ a ↦ a = .step env) (w.next lib fromSlice a) w' ∧
        w'.stage = .unreachable msg := by
  have hw := sound_of_run hlib h
  refine ⟨hw.reachable, ?_, ?_⟩
  · intro job t token hstage g' hrun
    have htarget : target w = some token := by simp only [target, hstage]
    rcases lockRecv_error hw.secure hrun with hbusy | ⟨-, ⟨c, hc, hlocked⟩, -⟩
    · cases hbusy
    · exact hlocked (hw.unlocked token c htarget hc)
  · intro a ha hu env
    cases a with
    | other a =>
      simp only [Undisturbed, not_forall, not_not] at hu
      obtain ⟨token, htarget, htries⟩ := hu
      exact hw.disturbed ha htarget htries env
    | start d => exact absurd trivial hu
    | step env => exact absurd trivial hu

def openLibrary : Library Unit :=
  { exampleLibrary with
    accept := fun scid _ _ _ _ ↦ .ok (Script.connection ⟨true, scid, [], [], none⟩) }

def firstPacket : Group.FromSlice := fun _ ↦
  .ok ⟨.initial, 1, [7], [], some [0], by decide, by decide⟩

def trustful : Env Unit where
  unlock := .still
  now := 0
  acceptor :=
    { exampleAcceptor with
      addressValidator.validateAddress := fun _ _ _ _ ↦ .ok (some []) }

def greeting : Datagram := ⟨[0], 1, exampleRecvInfo, none, true⟩

theorem openLibrary_keepsSourceId : KeepsSourceId openLibrary := by
  intro scid odcid localAddr peer config conn h
  cases h
  rfl

def greeted : World :=
  [.start greeting, .step trustful, .step trustful, .step trustful].foldl
    (World.next openLibrary firstPacket) .initial

theorem run_greeted {ok : World → Action Unit → Prop} (hstart : ∀ w d, ok w (.start d))
    (hstep : ∀ w env, ok w (.step env)) :
    Run (step openLibrary firstPacket) ok .initial greeted := by
  have h : Run (step openLibrary firstPacket) ok .initial _ :=
    .one (i := .start greeting) (hstart ..) rfl
  have hfound := h.tail (i := .step trustful) (hstep ..) rfl
  have haccepted := hfound.tail (i := .step trustful) (hstep ..) rfl
  exact haccepted.tail (i := .step trustful) (hstep ..) rfl

theorem newly_registered_idle_example :
    ∃ w job, Run (step openLibrary firstPacket) (fun w a ↦ Permitted w a ∧ Undisturbed w a)
        .initial w ∧
      w.stage = .locking job (some ⟨0⟩) ⟨0⟩ ∧
      ∀ g', Group.lockRecv ⟨0⟩ none w.base.group ≠ .ok (.error .busy) g' := by
  have hgreeted : Run (step openLibrary firstPacket) (fun w a ↦ Permitted w a ∧ Undisturbed w a)
      .initial greeted := run_greeted (fun _ _ ↦ ⟨trivial, trivial⟩) fun _ _ ↦ ⟨trivial, trivial⟩
  have h := hgreeted.tail (i := .step trustful) (by exact ⟨trivial, trivial⟩) rfl
  exact ⟨_, _, h, rfl, (newly_registered_idle openLibrary_keepsSourceId h).2.1 _ _ _ rfl⟩

/-- Another thread polls the group, is told of the new connection, and starts to send for
it. The connection that was just registered is busy. -/
theorem newly_registered_busy :
    KeepsSourceId openLibrary ∧
    ∃ w, Run (step openLibrary firstPacket) Permitted .initial w ∧
      w.stage = .unreachable "Newly registered connections should be idle" := by
  have h : Run (step openLibrary firstPacket) Permitted .initial greeted :=
    run_greeted (fun _ _ ↦ trivial) fun _ _ ↦ trivial
  have hpoll := h.tail (i := .other (.poll ⟨0, HashSet.listed, Peek.first⟩))
    (by exact ⟨trivial, by simp⟩) rfl
  have hlock := hpoll.tail (i := .other (.lock ⟨0⟩ .recv))
    (by exact ⟨by simp [Interleaving.Legal], by simp⟩) rfl
  have hfind := hlock.tail (i := .step trustful) (by trivial) rfl
  have hbusy := hfind.tail (i := .step trustful) (by trivial) rfl
  exact ⟨openLibrary_keepsSourceId, _, hbusy, rfl⟩

end Idling

end ZeroRtt.Poll.Accepting
