import ZeroRtt.Poll.Group
import ZeroRtt.Poll.LockProtocol

namespace ZeroRtt.Poll.Sections

open ZeroRtt.Lib.Panics ZeroRtt.Lib.Containers ZeroRtt.Lib.Runs
open ZeroRtt.Api.Types ZeroRtt.Api.Quiche ZeroRtt.Poll.Schedule ZeroRtt.Poll.Conn
open ZeroRtt.Poll.Retries ZeroRtt.Poll.Unlock ZeroRtt.Poll.Locking ZeroRtt.Poll.LockProtocol

variable {g : Group} {token : Token} {conn : QuicConn} {guards : List Guard} {α : Type}

def registrations (history : List Happening) : List Token :=
  history.filterMap fun x ↦
    match x with
    | .registered token => some token
    | _ => none

@[simp] theorem registrations_append (xs ys : List Happening) :
    registrations (xs ++ ys) = registrations xs ++ registrations ys := List.filterMap_append

@[simp] theorem registrations_observed (obs : List Obs) : registrations (obs.map .observed) = [] := by
  simp [registrations, List.filterMap_map]

@[simp] theorem registrations_delivered (events : List Event) :
    registrations (events.map .delivered) = [] := by
  simp [registrations, List.filterMap_map]

def Named (g : Group) : Prop := ∀ token c, g.state.conns.lookup token = some c → c.token = token

def leftBy : EStateM.Result Panic Group α → Group
  | .ok _ g => g
  | .error _ g => g

theorem leftBy_bind {β : Type} {x : Section α} {f : α → Section β}
    (hf : ∀ a g, leftBy (f a g) = g) (g : Group) : leftBy ((x >>= f) g) = leftBy (x g) := by
  simp only [bind, EStateM.bind]
  cases x g with
  | ok a g' => exact hf a g'
  | error panic g' => rfl

theorem takeConn_of_none (hc : g.state.conns.lookup token = none) :
    Group.takeConn token g = .ok (.error .notFound) g := by
  simp only [Group.takeConn, hc]

theorem takeConn_of_some {c : QuicConn} (hc : g.state.conns.lookup token = some c) :
    Group.takeConn token g =
      .ok (.ok c.wrapped) { g with state.conns := g.state.conns.erase token } := by
  simp only [Group.takeConn, hc]

theorem lookup_takeConn (token : Token) (g : Group) :
    (leftBy (Group.takeConn token g)).state.conns.lookup token = none := by
  unfold Group.takeConn
  split
  next hc => exact hc
  next => exact AList.lookup_erase _ _

theorem bind_of_ok {β : Type} {x : Section α} {f : α → Section β} {a : α} {g' : Group}
    (h : x g = .ok a g') : (x >>= f) g = f a g' := by
  simp only [bind, EStateM.bind, h]

theorem section_bind_ok {β : Type} {x : Section α} {f : α → Section β} {b : β} {g' : Group}
    (h : (x >>= f) g = .ok b g') : ∃ a g₁, x g = .ok a g₁ ∧ f a g₁ = .ok b g' := by
  simp only [bind, EStateM.bind] at h
  split at h
  next a g₁ hx => exact ⟨a, g₁, hx, h⟩
  · cases h

theorem onConn_of_none {f : Ctx → Rust (α × Ctx)} (h : g.state.conns.lookup token = none) :
    Group.onConn token f g = .ok (.error .notFound) g := by
  simp only [Group.onConn, h]

theorem lock_of_none (h : g.state.conns.lookup token = none) (kind : LocKind) :
    Group.lock token kind g = .ok (.error .notFound) g := by
  unfold Group.lock
  rw [bind_of_ok (onConn_of_none h)]
  rfl

theorem lockRecv_of_none (h : g.state.conns.lookup token = none) (unparker : Option Unparker) :
    Group.lockRecv token unparker g = .ok (.error .notFound) g := by
  simp only [Group.lockRecv, onConn_of_none h]

theorem streamOpen_of_none (h : g.state.conns.lookup token = none) (kind : StreamKind)
    (nonBlocking : Bool) (env : UnlockEnv) :
    Group.streamOpen token kind nonBlocking env g = .ok (.error .notFound) g := by
  unfold Group.streamOpen
  rw [bind_of_ok (onConn_of_none h)]
  rfl

theorem deregister_of_none (h : g.state.conns.lookup token = none) :
    Group.deregister token g = .ok (.error .notFound) g := by
  unfold Group.deregister
  rw [bind_of_ok (takeConn_of_none h)]
  rfl

theorem lookupScid_of_none {scid : ConnectionId} (h : g.scids.lookup scid = none) :
    Group.lookupScid scid g = .ok (.error .notFound) g := by
  simp only [Group.lookupScid, h]

theorem lookupScid_of_some {scid : ConnectionId} (h : g.scids.lookup scid = some token) :
    Group.lookupScid scid g = .ok (.ok token) g := by
  simp only [Group.lookupScid, h]

theorem recvWithConnectionId_of_none {scid : ConnectionId} (h : g.scids.lookup scid = none)
    (packet : Bytes) (info : RecvInfo) (unparker : Option Unparker) (env : UnlockEnv) :
    Group.recvWithConnectionId scid packet info unparker env g = .ok (.error .notFound) g := by
  unfold Group.recvWithConnectionId
  rw [bind_of_ok (lookupScid_of_none h)]
  rfl

theorem onConn_of_some {f : Ctx → Rust (α × Ctx)}
    (h : g.state.conns.lookup token = some conn) {a : α} {s : Ctx}
    (hf : f (g.state.ctx conn) = .ok (a, s)) :
    Group.onConn token f g = .ok (.ok a) { g with state := g.state.put token s } := by
  simp only [Group.onConn, h, hf]

theorem unlockConn_ok {g' : Group} {ctx : LockContext} {env : UnlockEnv} {closed : Bool}
    (h : Group.unlockConn ctx env g = .ok closed g') :
    ∃ c s, g.state.conns.lookup ctx.token = some c ∧
      (g.state.ctx c).unlock ctx.lockCount ctx.sendDone env = .ok (closed, s) ∧
      g' = { g with
        state := { g.state with
          unparkers := g.state.unparkers.erase ctx.token }.put ctx.token s } := by
  unfold Group.unlockConn at h
  dsimp only at h
  split at h
  next hconn =>
    cases h
    unfold Group.onConn at hconn
    split at hconn
    · cases hconn
    next c hc =>
      split at hconn
      · cases hconn
      next s hunlock =>
        cases hconn
        exact ⟨c, s, hc, hunlock, rfl⟩
  · cases h
  · cases h

theorem tryLock_grants {s : Ctx} (h : Held s.conn guards) {kind : LocKind}
    (hg : Grants s.conn kind) :
    Group.tryLock kind s =
      .ok (.ok (guardOf s.conn kind), { s with conn := grant s.conn kind }) := by
  simp only [Group.tryLock, tryLockPrv_grants h hg, ok_bind, pure_eq_ok]
  rfl

theorem tryLock_refuses {s : Ctx} {kind : LocKind} (hg : ¬ Grants s.conn kind) :
    Group.tryLock kind s = .ok (.error .busy, { s with conn := s.conn.refuse kind }) := by
  simp only [Group.tryLock, tryLockPrv_refuses hg, ok_bind, pure_eq_ok]
  rfl

theorem sendDone_of_tryLockPrv {c c' : QuicConn} {kind : LocKind} {lock : LockContext}
    (h : c.tryLockPrv kind = .ok (.ok lock, c')) : lock.sendDone = false := by
  unfold QuicConn.tryLockPrv at h
  split at h
  · dsimp only at h
    split at h
    · obtain ⟨-, -, h⟩ := bind_ok h
      cases h
      rfl
    · cases h
      rfl
  · split at h
    · obtain ⟨-, -, h⟩ := bind_ok h
      cases h
      rfl
    · cases h
  · cases h

theorem sendDone_of_onConn {kind : LocKind} {guard : Guard} {g' : Group}
    (h : Group.onConn token (Group.tryLock kind) g = .ok (.ok (.ok guard)) g') :
    guard.lock.sendDone = false := by
  unfold Group.onConn at h
  split at h
  · cases h
  · split at h
    · cases h
    next r s htry =>
      cases h
      obtain ⟨⟨r', c⟩, hlock, htry⟩ := bind_ok htry
      cases r' with
      | error err => cases htry
      | ok lock =>
        cases htry
        exact sendDone_of_tryLockPrv hlock

theorem sendDone_of_lock {kind : LocKind} {guard : Guard} {g' : Group}
    (h : Group.lock token kind g = .ok (.ok guard) g') : guard.lock.sendDone = false := by
  obtain ⟨r, g₁, hconn, h⟩ := section_bind_ok h
  rcases r with err | err | guard'
  · cases h
  · cases h
  · cases h
    exact sendDone_of_onConn hconn

/-- What `send` of the group does between locking and unlocking. -/
def transmit (guard : Guard) (len : ℕ) (now : Instant) :
    Section (Bool × Except Error (ℕ × SendInfo)) := do
  let conn ← Group.deref guard
  if (releaseTime conn now defaultReleaseTimerThreshold).isSome then
    return (false, .error .retry)
  Group.derefMut guard .onTimeout
  match ← Group.derefMut guard (.send len) with
  | .ok r => return (false, .ok r)
  | .error .done => return (true, .error .retry)
  | .error err => return (false, .error (.quiche err))

theorem send_eq (token : Token) (len : ℕ) (now : Instant) (env : UnlockEnv) (g : Group) :
    Group.send token len now env g =
      (do
        match ← Group.lock token .recv with
        | .error err => return .error err
        | .ok guard =>
          let (sendDone, r) ← transmit guard len now
          Group.unlock { guard.lock with sendDone } env
          return r : Section (Except Error (ℕ × SendInfo))) g := by
  cases hlock : Group.lock token .recv g with
  | error panic g' => simp only [Group.send, bind, EStateM.bind, hlock]
  | ok r g' =>
    cases r with
    | error err => simp only [Group.send, bind, EStateM.bind, hlock]
    | ok guard =>
      obtain ⟨⟨held, lockCount, sendDone⟩, kind, label⟩ := guard
      obtain rfl : sendDone = false := sendDone_of_lock hlock
      simp only [Group.send, transmit, bind_assoc]
      rw [bind_of_ok hlock, bind_of_ok hlock]
      refine congrFun (congrArg (_ >>= ·) (funext fun conn ↦ ?_)) g'
      split
      · simp only [pure_bind]
      · simp only [bind_assoc]
        refine congrArg (_ >>= ·) (funext fun _ ↦ ?_)
        refine congrArg (_ >>= ·) (funext fun r ↦ ?_)
        split
        · simp only [pure_bind]
        · simp only [pure_bind]
        · simp only [pure_bind]

theorem freeToken_spec {st st' : State} {n : ℕ} (h : st.freeToken n = some (token, st')) :
    st.conns.lookup token = none ∧ ∃ tokenNext, st' = { st with tokenNext } := by
  induction n generalizing st with
  | zero => cases h
  | succ n ih =>
    simp only [State.freeToken] at h
    split at h
    · obtain ⟨hfree, tokenNext, rfl⟩ := ih h
      exact ⟨hfree, tokenNext, rfl⟩
    next hfree =>
      cases h
      exact ⟨by simpa using hfree, _, rfl⟩

theorem settle_spec {s : Ctx} (h : Held s.conn []) (env : UnlockEnv) :
    ∃ n b k closed s' log, Group.settle s env = .ok (.ok (), s') ∧
      Unlocked { s with conn := relock s.conn n b k } false env closed s' log ∧
      Held s'.conn [] ∧ Continues s.conn s'.conn := by
  have hg : Grants s.conn .readLock := .inl (h.locker_eq_none_iff.mpr rfl)
  have hgranted := h.grant (show LocKind.readLock ≠ .none by simp) hg
  obtain ⟨n, b, k, closed, s', log, hunlock, hspec, hheld, hcont⟩ :=
    unlock_held (s := { s with conn := grant s.conn .readLock }) hgranted (List.mem_cons_self ..)
      false env
  have hgrant : Continues s.conn (grant s.conn .readLock) := .of_wrapped_eq rfl rfl
  rw [List.erase_cons_head] at hheld
  refine ⟨n, b, k, closed, s', log, ?_, hspec, hheld, hgrant.trans hcont⟩
  simp only [Group.settle, tryLock_grants h hg, ok_bind, hunlock, pure_eq_ok]

/-- The ways in which `register` can end. -/
inductive Registers (g : Group) (q : Connection) (env : UnlockEnv) :
    EStateM.Result Panic Group (Except Error Token) → Prop
  | hangs : Registers g q env (.error .hangs g)
  | taken (token : Token) (tokenNext : UInt32) :
      g.state.conns.lookup token = none → (g.scids.lookup q.sourceId).isSome →
      Registers g q env (.error .assertion
        ⟨{ g.state with tokenNext }, g.scids.insert q.sourceId token⟩)
  | fresh (token : Token) (tokenNext : UInt32) {n : ℕ} {b : LocKind} {k : ℕ} {closed : Bool}
      {s : Ctx} {log : List Handled} :
      g.state.conns.lookup token = none → g.scids.lookup q.sourceId = none →
      Unlocked (g.state.ctx (relock (.new token q) n b k)) false env closed s log →
      Held s.conn [] → Continues (.new token q) s.conn →
      Registers g q env (.ok (.ok token)
        ⟨State.put { g.state with
          tokenNext, history := g.state.history ++ [Happening.registered token] } token s,
          g.scids.insert q.sourceId token⟩)

theorem register_fresh {q : Connection} {st : State} (env : UnlockEnv)
    (hfree : g.state.freeToken (2 ^ 32) = some (token, st))
    (hscid : g.scids.lookup q.sourceId = none) :
    ∃ tokenNext n b k closed s log,
      Unlocked (g.state.ctx (relock (.new token q) n b k)) false env closed s log ∧
      Held s.conn [] ∧ Continues (.new token q) s.conn ∧
      Group.register q env g = .ok (.ok token)
        ⟨State.put { g.state with
          tokenNext, history := g.state.history ++ [Happening.registered token] } token s,
          g.scids.insert q.sourceId token⟩ := by
  obtain ⟨-, tokenNext, rfl⟩ := freeToken_spec hfree
  obtain ⟨n, b, k, closed, s, log, hsettle, hspec, hheld, hcont⟩ :=
    settle_spec (s := State.ctx { g.state with tokenNext } (.new token q)) (held_new token q) env
  refine ⟨tokenNext, n, b, k, closed, s, log, hspec, hheld, hcont, ?_⟩
  simp only [Group.register, hfree, hscid, Option.isSome_none, Bool.false_eq_true, if_false, hsettle]

theorem register_cases (g : Group) (q : Connection) (env : UnlockEnv) :
    Registers g q env (Group.register q env g) := by
  cases hfree : g.state.freeToken (2 ^ 32) with
  | none =>
    simp only [Group.register, hfree]
    exact .hangs
  | some r =>
    obtain ⟨token, st⟩ := r
    obtain ⟨hnone, tokenNext, rfl⟩ := freeToken_spec hfree
    cases hscid : g.scids.lookup q.sourceId with
    | some t =>
      simp only [Group.register, hfree, hscid]
      exact .taken token tokenNext hnone (by simp [hscid])
    | none =>
      obtain ⟨tokenNext, n, b, k, closed, s, log, hspec, hheld, hcont, hrun⟩ :=
        register_fresh env hfree hscid
      rw [hrun]
      exact .fresh token tokenNext hnone hscid hspec hheld hcont

end ZeroRtt.Poll.Sections
