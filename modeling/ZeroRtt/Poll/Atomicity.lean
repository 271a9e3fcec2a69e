import ZeroRtt.Poll.Steps

namespace ZeroRtt.Poll.Atomicity

open ZeroRtt.Lib.Panics ZeroRtt.Lib.Containers ZeroRtt.Lib.Runs
open ZeroRtt.Api.Types ZeroRtt.Api.Quiche ZeroRtt.Poll.Schedule ZeroRtt.Poll.Conn
open ZeroRtt.Poll.Locking ZeroRtt.Poll.Sections ZeroRtt.Poll.Interleaving
open ZeroRtt.Poll.LockProtocol hiding Action step
open ZeroRtt.Poll.GuardLifetime ZeroRtt.Poll.Steps ZeroRtt.Poll.Tables

variable {α : Type} {g : Group} {v w : World} {guards : List Guard} {guard : Guard}
  {token : Token} {c c' : QuicConn} {calls : List Call}

/-- The connection as it was, but for operations that wait for it and calls of quiche. -/
structure Resumes (c : QuicConn) (calls : List Call) (c' : QuicConn) : Prop where
  same : c' = { c with wrapped := c.wrapped.after calls, reties := c'.reties }
  waiting : ∀ k ∈ c.reties, k ∈ c'.reties

theorem Resumes.refl (c : QuicConn) : Resumes c [] c :=
  ⟨by rw [Connection.after_nil], fun _ hk ↦ hk⟩

theorem Resumes.trans {c'' : QuicConn} {calls' : List Call} (h : Resumes c calls c')
    (h' : Resumes c' calls' c'') : Resumes c (calls ++ calls') c'' := by
  refine ⟨?_, fun k hk ↦ h'.waiting k (h.waiting k hk)⟩
  rw [h'.same, h.same, Connection.after_after]

theorem resumes_refuse (c : QuicConn) (kind : LocKind) : Resumes c [] (c.refuse kind) := by
  refine ⟨?_, fun k hk ↦ (refuse_reties c kind k).mpr (.inl hk)⟩
  unfold QuicConn.refuse
  rw [Connection.after_nil]
  cases kind.needRetry <;> rfl

theorem Resumes.locker (h : Resumes c calls c') : c'.locker = c.locker := by rw [h.same]

def Exclusive (c : QuicConn) : Prop := c.locker ≠ .none ∧ c.locker ≠ .readLock

theorem Exclusive.not_grants (h : Exclusive c) (kind : LocKind) : ¬ Grants c kind := by
  rintro (hnone | ⟨hread, -⟩)
  · exact h.1 hnone
  · exact h.2 hread

def Kept (token : Token) (c : QuicConn) (g : Group) : Prop :=
  ∃ c', g.state.conns.lookup token = some c' ∧ Resumes c [] c'

section Sections

variable (hc : g.state.conns.lookup token = some c)
include hc

theorem kept_of_conns_eq {g' : Group} (hconns : g'.state.conns = g.state.conns) :
    Kept token c g' := ⟨c, by rw [hconns]; exact hc, .refl c⟩

theorem kept_put {other : Token} {s : Ctx} (hs : other = token → Resumes c [] s.conn) :
    Kept token c { g with state := g.state.put other s } := by
  by_cases ht : other = token
  · subst ht
    exact ⟨s.conn, AList.lookup_insert _, hs rfl⟩
  · have hlookup : (g.state.put other s).conns.lookup token = g.state.conns.lookup token :=
      AList.lookup_insert_ne (Ne.symm ht)
    exact ⟨c, hlookup.trans hc, .refl c⟩

theorem kept_onConn {f : Ctx → Rust (α × Ctx)} {other : Token}
    (hf : other = token → ∀ a s, f (g.state.ctx c) = .ok (a, s) → Resumes c [] s.conn) :
    Kept token c (leftBy (Group.onConn other f g)) := by
  unfold Group.onConn
  cases hother : g.state.conns.lookup other with
  | none => exact kept_of_conns_eq hc rfl
  | some d =>
    dsimp only
    cases hrun : f (g.state.ctx d) with
    | error panic => exact kept_of_conns_eq hc rfl
    | ok r =>
      obtain ⟨a, s⟩ := r
      apply kept_put hc
      rintro rfl
      rw [hc] at hother
      cases hother
      exact hf rfl a s hrun

theorem kept_operation {f : Ctx → Rust (Except Error α × Ctx)} {other : Token}
    (hf : other = token → ∀ a s, f (g.state.ctx c) = .ok (a, s) → Resumes c [] s.conn) :
    Kept token c
      (leftBy ((do return (← Group.onConn other f).bind id : Section (Except Error α)) g)) := by
  rw [leftBy_bind fun a g ↦ rfl]
  exact kept_onConn hc hf

theorem kept_register (q : Connection) (env : UnlockEnv) :
    Kept token c (leftBy (Group.register q env g)) := by
  have hcases := register_cases g q env
  generalize Group.register q env g = r at hcases
  cases hcases with
  | hangs => exact kept_of_conns_eq hc rfl
  | taken fresh tokenNext hnone hscid => exact kept_of_conns_eq hc rfl
  | @fresh fresh tokenNext n b k closed s log hnone hscid hunlocked hheld hcont =>
    have hne : token ≠ fresh := by
      rintro rfl
      rw [hc] at hnone
      cases hnone
    exact ⟨c, (AList.lookup_insert_ne hne).trans hc, .refl c⟩

theorem kept_takeConn {other : Token} (hne : token ≠ other) :
    Kept token c (leftBy (Group.takeConn other g)) := by
  unfold Group.takeConn
  split
  · exact kept_of_conns_eq hc rfl
  · exact ⟨c, (AList.lookup_erase_ne hne).trans hc, .refl c⟩

theorem kept_derefMut {other : Guard} (hne : other.lock.token ≠ token) (call : Call) :
    Kept token c (leftBy (Group.derefMut other call g)) := by
  unfold Group.derefMut
  cases hderef : Group.deref other g with
  | error panic g' =>
    have hleft := Walks.Carries.leftBy_deref other g
    rw [hderef] at hleft
    simp only [bind, EStateM.bind, hderef]
    exact kept_of_conns_eq hc (congrArg (fun g ↦ g.state.conns) hleft)
  | ok q g' =>
    have hleft := Walks.Carries.leftBy_deref other g
    rw [hderef] at hleft
    obtain rfl : g' = g := hleft
    rw [bind_of_ok hderef, leftBy_bind fun a g ↦ rfl]
    exact kept_onConn hc fun ht ↦ absurd ht hne

theorem kept_unlockConn {ctx : LockContext} (hne : ctx.token ≠ token) (env : UnlockEnv) :
    Kept token c (leftBy (Group.unlockConn ctx env g)) := by
  have hrun := kept_onConn (g := { g with
    state.unparkers := g.state.unparkers.erase ctx.token })
    (f := fun s ↦ s.unlock ctx.lockCount ctx.sendDone env) hc fun ht ↦ absurd ht hne
  simp only [Group.unlockConn]
  split
  next hconn => rwa [hconn] at hrun
  next hconn => rwa [hconn] at hrun
  next hconn => rwa [hconn] at hrun

variable (hlocked : Exclusive c)
include hlocked

theorem kept_lock (other : Token) (kind : LocKind) :
    Kept token c (leftBy (Group.lock other kind g)) := by
  apply kept_operation hc
  rintro - r s hrun
  rw [tryLock_refuses (s := g.state.ctx c) (hlocked.not_grants kind)] at hrun
  cases hrun
  exact resumes_refuse c kind

theorem kept_lockRecv (other : Token) (unparker : Option Unparker) :
    Kept token c (leftBy (Group.lockRecv other unparker g)) := by
  have hlock : Kept token c (leftBy (Group.onConn other (Group.tryLock .recv) g)) := by
    apply kept_onConn hc
    rintro - r s hrun
    rw [tryLock_refuses (s := g.state.ctx c) (hlocked.not_grants .recv)] at hrun
    cases hrun
    exact resumes_refuse c .recv
  unfold Group.lockRecv
  generalize Group.onConn other (Group.tryLock .recv) g = r at hlock
  cases r with
  | error panic g' => exact hlock
  | ok a g' =>
    rcases a with err | err | guard
    · exact hlock
    · cases unparker with
      | none => exact hlock
      | some unparker => exact hlock
    · exact hlock

theorem kept_close (other : Token) (app : Bool) (err : ℕ) (reason : Bytes) (env : UnlockEnv) :
    Kept token c (leftBy (Group.close other app err reason env g)) := by
  apply kept_operation hc
  rintro - r s hrun
  rw [close_refuses (s := g.state.ctx c) env (hlocked.not_grants _)] at hrun
  cases hrun
  exact resumes_refuse c (.close app err reason)

theorem kept_streamOpen (other : Token) (kind : StreamKind) (nonBlocking : Bool)
    (env : UnlockEnv) : Kept token c (leftBy (Group.streamOpen other kind nonBlocking env g)) := by
  apply kept_operation hc
  rintro - r s hrun
  rw [streamOpen_refuses (s := g.state.ctx c) nonBlocking env (hlocked.not_grants _)] at hrun
  cases hrun
  exact resumes_refuse c (.streamOpen kind)

theorem kept_streamShutdown (other : Token) (streamId err : ℕ) (env : UnlockEnv) :
    Kept token c (leftBy (Group.streamShutdown other streamId err env g)) := by
  apply kept_operation hc
  rintro - r s hrun
  rw [streamClose_refuses (s := g.state.ctx c) env (hlocked.not_grants _)] at hrun
  cases hrun
  exact resumes_refuse c (.streamClose streamId err)

end Sections

section Guards

theorem Safe.exclusive (h : Safe w) (hg : guard ∈ w.guards) (hkind : guard.kind ≠ .readLock) :
    ∃ c, w.group.state.conns.lookup guard.lock.token = some c ∧ Exclusive c ∧
      guardsOf w.guards guard.lock.token = [guard] := by
  obtain ⟨c, hc, -, hheld⟩ := Guarded.live h hg
  have hmem := mem_guardsOf hg
  have hnone : c.locker ≠ .none := by
    intro hnone
    rw [hheld.idle hnone] at hmem
    cases hmem
  have hread : c.locker ≠ .readLock := fun hread ↦ hkind ((hheld.shared hread).2 guard hmem)
  obtain ⟨guard', hguards, -⟩ := hheld.exclusive hnone hread
  rw [hguards, List.mem_singleton] at hmem
  exact ⟨c, hc, ⟨hnone, hread⟩, by rw [hguards, hmem]⟩

theorem token_ne_of_guards (hguards : guardsOf w.guards guard.lock.token = [guard])
    {other : Guard} (hother : other ∈ w.guards) (hne : other ≠ guard) :
    other.lock.token ≠ guard.lock.token := by
  intro htoken
  have hmem := mem_guardsOf hother
  rw [htoken, hguards] at hmem
  exact hne (List.mem_singleton.mp hmem)

theorem run_guards {x : Section α} {k : World → α → World}
    (hk : ∀ w a, guard ∈ w.guards → guard ∈ (k w a).guards) (hg : guard ∈ w.guards) :
    guard ∈ (w.run x k).guards := by
  unfold World.run
  cases x w.group with
  | ok a g => exact hk _ a hg
  | error panic g => exact hg

theorem hold_guards (w : World) (r : Except Error Guard) (hg : guard ∈ w.guards) :
    guard ∈ (w.hold r).guards := by
  cases r with
  | error err => exact hg
  | ok other => exact List.mem_cons_of_mem _ hg

end Guards

/-- What the other threads, and those who hold other guards, may do meanwhile. -/
structure Aside (guard : Guard) (w : World) (a : Action) : Prop where
  legal : Legal w a
  unlocked : TakesUnlocked w a
  unguarded : GrowsUnguarded w a
  unlock : ∀ sendDone env, a ≠ .unlock guard sendDone env
  call : ∀ c, a ≠ .call guard c

theorem kept_next (hc : w.group.state.conns.lookup guard.lock.token = some c)
    (hlocked : Exclusive c) {a : Action} (ha : Aside guard w a)
    (hguards : guardsOf w.guards guard.lock.token = [guard]) :
    Kept guard.lock.token c (w.next a).group := by
  have hperforms := performs_next w a
  generalize (w.next a).group = g at hperforms ⊢
  cases hperforms with
  | rests => exact kept_of_conns_eq hc rfl
  | register q env => exact kept_register hc q env
  | lock token kind => exact kept_lock hc hlocked token kind
  | lockRecv token unparker => exact kept_lockRecv hc hlocked token unparker
  | call other call =>
    have hne : other ≠ guard := by
      rintro rfl
      exact ha.call call rfl
    exact kept_derefMut hc (token_ne_of_guards hguards ha.legal hne) call
  | unlock other sendDone env =>
    have hne : other ≠ guard := by
      rintro rfl
      exact ha.unlock sendDone env rfl
    apply kept_unlockConn hc
    exact token_ne_of_guards hguards ha.legal hne
  | takeConn token htakes =>
    apply kept_takeConn hc
    rintro rfl
    exact hlocked.1 (ha.unlocked _ c htakes hc)
  | takeScid token q =>
    unfold Group.takeScid
    dsimp only
    split <;> exact kept_of_conns_eq hc rfl
  | close token app err reason env => exact kept_close hc hlocked token app err reason env
  | streamOpen token kind nonBlocking env =>
    exact kept_streamOpen hc hlocked token kind nonBlocking env
  | streamShutdown token streamId err env =>
    exact kept_streamShutdown hc hlocked token streamId err env
  | poll env =>
    unfold Group.poll
    split <;> exact kept_of_conns_eq hc rfl

theorem guards_next (hg : guard ∈ w.guards) {a : Action}
    (ha : ∀ sendDone env, a ≠ .unlock guard sendDone env) : guard ∈ (w.next a).guards := by
  cases a with
  | lock token kind => exact run_guards hold_guards hg
  | unlock other sendDone env =>
    have hne : guard ≠ other := by
      rintro rfl
      exact ha sendDone env rfl
    apply run_guards
    · intro w closed hmem
      cases closed <;> exact hmem
    · exact (List.mem_erase_of_ne hne).mpr hg
  | deregister token =>
    rw [World.next, takeConn_guards]
    exact hg
  | lookupScid dcid =>
    apply run_guards _ hg
    intro w r hmem
    cases r <;> exact hmem
  | resume i unparker accepted env =>
    unfold World.next
    dsimp only
    split
    next p hp =>
      cases p with
      | takeConn token =>
        rw [World.resume, takeConn_guards]
        exact hg
      | takeScid token q => exact run_guards (fun _ _ hmem ↦ hmem) hg
      | lockRecv dcid token =>
        rw [World.resume]
        apply run_guards
        · intro w r hmem
          rcases r with err | other
          · cases err <;> exact hmem
          · exact List.mem_cons_of_mem _ hmem
        · exact hg
      | handshake dcid =>
        cases accepted with
        | none => exact hg
        | some q => exact run_guards (fun _ _ hmem ↦ hmem) hg
    next => exact hg
  | _ => exact run_guards (fun _ _ hmem ↦ hmem) hg

/-- From one world to another while a guard is held: the calls made through it, and whatever
happens aside. -/
inductive Span (guard : Guard) (v : World) : World → List Call → Prop
  | start : Span guard v v []
  | call {w : World} {calls : List Call} (c : Call) :
      Span guard v w calls → Span guard v (w.next (.call guard c)) (calls ++ [c])
  | aside {w : World} {calls : List Call} {a : Action} :
      Span guard v w calls → Aside guard w a → Span guard v (w.next a) calls

theorem call_next (h : Safe w) (hg : guard ∈ w.guards)
    (hc : w.group.state.conns.lookup guard.lock.token = some c) (call : Call) :
    ∃ c', (w.next (.call guard call)).group.state.conns.lookup guard.lock.token = some c' ∧
      Resumes c [call] c' := by
  obtain ⟨c₁, hc₁, -, hheld⟩ := Guarded.live h hg
  rw [hc] at hc₁
  cases hc₁
  have hlabel : c.wrapped.label = guard.label := (hheld.lock guard (mem_guardsOf hg)).2.2.symm
  have hderef : Group.deref guard w.group = .ok c.wrapped w.group := by
    simp only [Group.deref, hc, hlabel, if_true]
  have hcall := onConn_of_some (f := fun s ↦ .ok ((), (s.call call).2)) hc rfl
  rw [World.next, run_group fun _ _ ↦ rfl, Group.derefMut, bind_of_ok hderef, bind_of_ok hcall]
  exact ⟨_, AList.lookup_insert _, rfl, fun _ hk ↦ hk⟩

theorem exclusive_of_resumes (h : Resumes c calls c') (hc : Exclusive c) : Exclusive c' := by
  unfold Exclusive
  rw [h.locker]
  exact hc

/-- While a guard other than a reader's is held, its connection changes by the calls made
through it, one after the other, and by nothing else but the operations that wait for it. -/
theorem locked_section_atomic
    (h : Run step (fun w a ↦ (Legal w a ∧ TakesUnlocked w a) ∧ GrowsUnguarded w a) .initial v)
    (hg : guard ∈ v.guards) (hkind : guard.kind ≠ .readLock) (hspan : Span guard v w calls) :
    guard ∈ w.guards ∧ ∃ c c', v.group.state.conns.lookup guard.lock.token = some c ∧
      w.group.state.conns.lookup guard.lock.token = some c' ∧ Resumes c calls c' := by
  have hsafe := run_safe (h.mono fun _ _ ha ↦ ha.1)
  obtain ⟨c, hc, hlocked, -⟩ := Safe.exclusive hsafe hg hkind
  have hall : Safe w ∧ guard ∈ w.guards ∧ ∃ c',
      w.group.state.conns.lookup guard.lock.token = some c' ∧ Resumes c calls c' := by
    induction hspan with
    | start => exact ⟨hsafe, hg, c, hc, .refl c⟩
    | @call w calls call _ ih =>
      obtain ⟨hw, hmem, c₁, hc₁, hresumes⟩ := ih
      obtain ⟨c₂, hc₂, hresumes'⟩ := call_next hw hmem hc₁ call
      have hlegal : Legal w (.call guard call) := hmem
      refine ⟨safe_next hw hlegal ?_, guards_next hmem ?_, c₂, hc₂, hresumes.trans hresumes'⟩
      · exact fun _ _ ht ↦ by cases ht
      · exact fun _ _ heq ↦ by cases heq
    | @aside w calls a _ ha ih =>
      obtain ⟨hw, hmem, c₁, hc₁, hresumes⟩ := ih
      obtain ⟨_, -, -, hguards⟩ := Safe.exclusive hw hmem hkind
      obtain ⟨c₃, hc₃, hresumes'⟩ :=
        kept_next hc₁ (exclusive_of_resumes hresumes hlocked) ha hguards
      refine ⟨safe_next hw ha.legal ha.unlocked, guards_next hmem ha.unlock, c₃, hc₃, ?_⟩
      have hboth := hresumes.trans hresumes'
      rwa [List.append_nil] at hboth
  obtain ⟨-, hmem, c', hc', hresumes⟩ := hall
  exact ⟨hmem, c, c', hc, hc', hresumes⟩

theorem locked_section_atomic_example :
    ∃ w, Span firstGuard connected w [.onTimeout, .send 1200] ∧ firstGuard ∈ w.guards ∧
      ∃ c c', connected.group.state.conns.lookup ⟨0⟩ = some c ∧
        w.group.state.conns.lookup ⟨0⟩ = some c' ∧ Resumes c [.onTimeout, .send 1200] c' := by
  have hconnect : Run step (fun w a ↦ (Legal w a ∧ TakesUnlocked w a) ∧ GrowsUnguarded w a)
      .initial _ :=
    .one (i := .connect (Script.connection ⟨false, [1], [], [], none⟩) .still)
      ⟨⟨trivial, fun _ _ ht ↦ by cases ht⟩, fun _ _ _ ↦ rfl⟩ rfl
  have hlock : Run step (fun w a ↦ (Legal w a ∧ TakesUnlocked w a) ∧ GrowsUnguarded w a) .initial
      connected :=
    hconnect.tail (i := .lock ⟨0⟩ .recv)
      ⟨⟨by simp [Legal], fun _ _ ht ↦ by cases ht⟩, fun _ _ hr ↦ by cases hr⟩ rfl
  have haside : Aside firstGuard (connected.next (.call firstGuard .onTimeout))
      (.close ⟨0⟩ true 0 [] .still) :=
    ⟨trivial, fun _ _ ht ↦ (by cases ht), fun _ _ hr ↦ (by cases hr), fun _ _ heq ↦ (by cases heq),
      fun _ heq ↦ (by cases heq)⟩
  have hspan := ((Span.start.call (v := connected) .onTimeout).aside haside).call (.send 1200)
  obtain ⟨hmem, c, c', hc, hc', hresumes⟩ := locked_section_atomic hlock
    (show firstGuard ∈ connected.guards from List.mem_cons_self ..) (by simp [firstGuard]) hspan
  exact ⟨_, hspan, hmem, c, c', hc, hc', hresumes⟩

end ZeroRtt.Poll.Atomicity
