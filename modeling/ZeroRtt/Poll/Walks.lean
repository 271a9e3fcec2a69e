import ZeroRtt.Poll.RetryProtocol
import ZeroRtt.Poll.Sections

namespace ZeroRtt.Poll.Walks

open ZeroRtt.Lib.Panics ZeroRtt.Lib.Containers
open ZeroRtt.Api.Types ZeroRtt.Api.Quiche ZeroRtt.Poll.Schedule ZeroRtt.Poll.Conn
open ZeroRtt.Poll.Evolution ZeroRtt.Poll.Retries ZeroRtt.Poll.Unlock ZeroRtt.Poll.Locking
open ZeroRtt.Poll.RetryProtocol ZeroRtt.Poll.Sections

variable {α : Type} {R : Ctx → Ctx → Prop} {S : Group → Group → Prop}

theorem ne_none_of_foldlM {s t : Ctx} {ks : List LocKind} (h : ks.foldlM Ctx.handleRetryEvent s = .ok t) :
    ∀ k ∈ ks, k ≠ .none := by
  induction ks generalizing s with
  | nil => simp
  | cons k ks ih =>
    obtain ⟨r, hr, hrest⟩ := bind_ok h
    intro k' hk'
    rcases List.mem_cons.mp hk' with rfl | hk'
    · rintro rfl
      cases hr
    · exact ih hrest k' hk'

theorem ne_none_of_unlock {s t : Ctx} {n : ℕ} {sendDone closed : Bool} {env : UnlockEnv}
    (h : s.unlock n sendDone env = .ok (closed, t)) : ∀ k ∈ s.conn.reties, k ≠ .none := by
  obtain ⟨c, hrelease, hrest⟩ := bind_ok h
  obtain ⟨m, b, k, rfl⟩ := release_cases hrelease
  obtain ⟨r, hretry, -⟩ := bind_ok hrest
  have hall := ne_none_of_foldlM hretry
  intro k hk
  exact hall k ((HashSet.mem_order env.order).mpr hk)

theorem unlocked_of_ok {s t : Ctx} {n : ℕ} {sendDone closed : Bool} {env : UnlockEnv}
    (h : s.unlock n sendDone env = .ok (closed, t)) :
    ∃ m b k log, Unlocked { s with conn := relock s.conn m b k } sendDone env closed t log := by
  have hne := ne_none_of_unlock h
  obtain ⟨c, hrelease, -⟩ := bind_ok h
  obtain ⟨m, b, k, rfl⟩ := release_cases hrelease
  obtain ⟨closed', t', log, hunlock, hspec⟩ := unlock_spec s sendDone env hrelease hne
  rw [h] at hunlock
  cases hunlock
  exact ⟨m, b, k, log, hspec⟩

theorem unlock_parts {s t : Ctx} {n : ℕ} {sendDone closed : Bool} {env : UnlockEnv}
    (h : s.unlock n sendDone env = .ok (closed, t)) :
    ∃ m b k u, { s with conn := relock s.conn m b k }.handleRetryEvents env = .ok u ∧
      Evolves { s with conn := relock s.conn m b k } u (logCalls (recorded s env))
        (insertions (logEvents s.event (recorded s env))) ∧
      (u.handleStreamStateChanged.handleSend sendDone env.now).handleStateChanged = (closed, t) := by
  have hne := ne_none_of_unlock h
  obtain ⟨c, hrelease, h⟩ := bind_ok h
  obtain ⟨m, b, k, rfl⟩ := release_cases hrelease
  obtain ⟨u, hu, hretry, -⟩ := handleRetryEvents_spec { s with conn := relock s.conn m b k } env hne
  rw [hu, ok_bind] at h
  exact ⟨m, b, k, u, hu, hretry, Except.ok.inj h⟩

/-- The elementary steps of the operations on a connection keep to `R`. -/
structure Elementary (R : Ctx → Ctx → Prop) : Prop where
  trans : ∀ {s t u}, R s t → R t u → R s u
  lock : ∀ {s kind r c}, kind ≠ .readLock → s.conn.tryLockPrv kind = .ok (r, c) →
    R s { s with conn := c }
  calls : ∀ {s calls}, .streamWritableNext ∉ calls → R s (afterCalls s calls)
  opens : ∀ s kind, R s (s.streamOpenPrv kind).2
  later : ∀ s kind, R s (s.retryLater (.streamOpen kind))
  unlock : ∀ {s n sendDone env closed t}, s.unlock n sendDone env = .ok (closed, t) → R s t

/-- So do those of the operations that open no stream. -/
structure Steady (R : Ctx → Ctx → Prop) : Prop where
  trans : ∀ {s t u}, R s t → R t u → R s u
  lock : ∀ {s kind r c}, kind ≠ .readLock → s.conn.tryLockPrv kind = .ok (r, c) →
    R s { s with conn := c }
  calls : ∀ {s calls}, .streamWritableNext ∉ calls → R s (afterCalls s calls)
  unlock : ∀ {s n sendDone env closed t}, s.unlock n sendDone env = .ok (closed, t) → R s t

theorem Elementary.steady (h : Elementary R) : Steady R :=
  ⟨h.trans, h.lock, h.calls, h.unlock⟩

namespace Steady

variable {s t : Ctx}

theorem tryLock (h : Steady R) {kind : LocKind} (hkind : kind ≠ .readLock)
    {r : Except Error Guard} (hrun : Group.tryLock kind s = .ok (r, t)) : R s t := by
  obtain ⟨⟨r', c⟩, hlock, hrun⟩ := bind_ok hrun
  cases hrun
  exact h.lock hkind hlock

theorem call (h : Steady R) {c : Call} (hc : c ≠ .streamWritableNext) (s : Ctx) :
    R s (s.call c).2 :=
  show R s (afterCalls s [c]) from h.calls (by simpa using hc.symm)

theorem streamClosePrv (h : Steady R) (s : Ctx) (id err : ℕ) :
    R s (s.streamClosePrv id err).2 := by
  rw [streamClosePrv_snd]
  apply h.calls
  intro hmem
  rcases mem_streamCloseCalls hmem with hmem | hmem <;> cases hmem

theorem close (h : Steady R) {app : Bool} {err : ℕ} {reason : Bytes} {env : UnlockEnv}
    {r : Except Error Unit} (hrun : s.close app err reason env = .ok (r, t)) : R s t := by
  obtain ⟨⟨guard, c⟩, hlock, hrun⟩ := bind_ok hrun
  have hstart := h.lock (by simp) hlock
  dsimp only at hrun
  split at hrun
  · cases hrun
    exact hstart
  · cases hrun
    exact hstart
  · obtain ⟨⟨closed, u⟩, hunlock, hrun⟩ := bind_ok hrun
    cases hrun
    exact h.trans hstart (h.trans (h.call (by simp) _) (h.unlock hunlock))

theorem streamClose (h : Steady R) {id err : ℕ} {env : UnlockEnv} {r : Except Error Unit}
    (hrun : s.streamClose id err env = .ok (r, t)) : R s t := by
  obtain ⟨⟨guard, c⟩, hlock, hrun⟩ := bind_ok hrun
  have hstart := h.lock (by simp) hlock
  dsimp only at hrun
  split at hrun
  · cases hrun
    exact hstart
  · cases hrun
    exact hstart
  · obtain ⟨⟨closed, u⟩, hunlock, hrun⟩ := bind_ok hrun
    cases hrun
    exact h.trans hstart (h.trans (h.streamClosePrv _ id err) (h.unlock hunlock))

end Steady

namespace Elementary

variable {s t : Ctx}

theorem streamOpen (h : Elementary R) {kind : StreamKind} {nonBlocking : Bool} {env : UnlockEnv}
    {r : Except Error (Option ℕ)} (hrun : s.streamOpen kind nonBlocking env = .ok (r, t)) :
    R s t := by
  obtain ⟨⟨guard, c⟩, hlock, hrun⟩ := bind_ok hrun
  have hstart := h.lock (by simp) hlock
  dsimp only at hrun
  split at hrun
  · cases hrun
    exact hstart
  · have hopen := h.trans hstart (h.opens { s with conn := c } kind)
    split at hrun
    next u hu =>
      rw [hu] at hopen
      obtain ⟨⟨closed, v⟩, hunlock, hrun⟩ := bind_ok hrun
      cases hrun
      exact h.trans hopen (h.trans (h.later u kind) (h.unlock hunlock))
    next u _ hu =>
      rw [hu] at hopen
      obtain ⟨⟨closed, v⟩, hunlock, hrun⟩ := bind_ok hrun
      cases hrun
      exact h.trans hopen (h.unlock hunlock)

end Elementary

/-- Whatever a step that keeps to `R` does to a connection of a group keeps to `S`. -/
structure Carries (R : Ctx → Ctx → Prop) (S : Group → Group → Prop) : Prop where
  refl : ∀ g, S g g
  trans : ∀ {g g' g''}, S g g' → S g' g'' → S g g''
  unparked : ∀ (g : Group) unparkers, S g { g with state.unparkers := unparkers }
  put : ∀ {g : Group} {token c s}, g.state.conns.lookup token = some c → R (g.state.ctx c) s →
    S g { g with state := g.state.put token s }

namespace Carries

theorem onConn (h : Carries R S) {f : Ctx → Rust (α × Ctx)}
    (hf : ∀ s a t, f s = .ok (a, t) → R s t) (token : Token) (g : Group) :
    S g (leftBy (Group.onConn token f g)) := by
  unfold Group.onConn
  cases hc : g.state.conns.lookup token with
  | none => exact h.refl g
  | some c =>
    dsimp only
    cases hrun : f (g.state.ctx c) with
    | error panic => exact h.refl g
    | ok r =>
      obtain ⟨a, s⟩ := r
      exact h.put hc (hf _ _ _ hrun)

theorem operation (h : Carries R S) {f : Ctx → Rust (Except Error α × Ctx)}
    (hf : ∀ s a t, f s = .ok (a, t) → R s t) (token : Token) (g : Group) :
    S g (leftBy ((do return (← Group.onConn token f).bind id : Section (Except Error α)) g)) := by
  rw [leftBy_bind fun a g ↦ rfl]
  exact h.onConn hf token g

theorem lockRecv (h : Carries R S)
    (hf : ∀ s r t, Group.tryLock .recv s = .ok (r, t) → R s t) (token : Token)
    (unparker : Option Unparker) (g : Group) : S g (leftBy (Group.lockRecv token unparker g)) := by
  have hlock := h.onConn hf token g
  unfold Group.lockRecv
  generalize Group.onConn token (Group.tryLock .recv) g = r at hlock
  cases r with
  | error panic g' => exact hlock
  | ok a g' =>
    rcases a with err | err | guard
    · exact hlock
    · cases unparker with
      | none => exact hlock
      | some unparker => exact h.trans hlock (h.unparked _ _)
    · exact hlock

theorem leftBy_deref (guard : Guard) (g : Group) : leftBy (Group.deref guard g) = g := by
  unfold Group.deref
  split
  · rfl
  · split <;> rfl

theorem bind {β : Type} (h : Carries R S) {x : Section α} {f : α → Section β}
    (hx : ∀ g, S g (leftBy (x g))) (hf : ∀ a g, S g (leftBy (f a g))) (g : Group) :
    S g (leftBy ((x >>= f) g)) := by
  have hstart := hx g
  cases hrun : x g with
  | ok a g' =>
    rw [hrun] at hstart
    rw [bind_of_ok hrun]
    exact h.trans hstart (hf a g')
  | error panic g' =>
    rw [hrun] at hstart
    simp only [Bind.bind, EStateM.bind, hrun]
    exact hstart

theorem deref (h : Carries R S) (guard : Guard) (g : Group) :
    S g (leftBy (Group.deref guard g)) := by
  rw [leftBy_deref]
  exact h.refl g

theorem derefMut (h : Carries R S) {c : Call} (hc : ∀ s : Ctx, R s (s.call c).2) (guard : Guard)
    (g : Group) : S g (leftBy (Group.derefMut guard c g)) := by
  refine h.bind (h.deref guard) (fun q g ↦ ?_) g
  rw [leftBy_bind fun a g ↦ rfl]
  refine h.onConn ?_ _ g
  intro s a t hrun
  cases hrun
  exact hc s

theorem unlockConn (h : Carries R S) {ctx : LockContext} {env : UnlockEnv}
    (hf : ∀ s closed t, s.unlock ctx.lockCount ctx.sendDone env = .ok (closed, t) → R s t)
    (g : Group) : S g (leftBy (Group.unlockConn ctx env g)) := by
  have hstart := h.unparked g (g.state.unparkers.erase ctx.token)
  have hrun := h.trans hstart (h.onConn hf ctx.token _)
  simp only [Group.unlockConn]
  split
  next hconn => rwa [hconn] at hrun
  next hconn => rwa [hconn] at hrun
  next hconn => rwa [hconn] at hrun

end Carries

end ZeroRtt.Poll.Walks
