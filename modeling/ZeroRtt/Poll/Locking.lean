import ZeroRtt.Lib.Runs
import ZeroRtt.Poll.Unlock

namespace ZeroRtt.Poll.Locking

open ZeroRtt.Lib.Panics ZeroRtt.Lib.Containers ZeroRtt.Lib.Runs
open ZeroRtt.Api.Types ZeroRtt.Api.Quiche ZeroRtt.Poll.Schedule ZeroRtt.Poll.Conn
open ZeroRtt.Poll.Evolution ZeroRtt.Poll.Retries ZeroRtt.Poll.Unlock

/-- A granted lock: the context it was given, the kind it was asked for, and
the connection it gives access to. -/
structure Guard where
  lock : LockContext
  kind : LocKind
  label : ℕ
deriving DecidableEq

/-- The lock of a connection agrees with the guards that are outstanding. -/
structure Held (c : QuicConn) (guards : List Guard) : Prop where
  lock : ∀ g ∈ guards, g.lock.token = c.token ∧ g.lock.lockCount = c.lockCount ∧
    g.label = c.wrapped.label
  idle : c.locker = .none → guards = []
  shared : c.locker = .readLock → guards ≠ [] ∧ ∀ g ∈ guards, g.kind = .readLock
  exclusive : c.locker ≠ .none → c.locker ≠ .readLock → ∃ g, guards = [g] ∧ g.kind = c.locker
  readers : c.readLockCount = guards.countP fun g ↦ g.kind = .readLock
  retries : ∀ k ∈ c.reties, k.needRetry = true

variable {c c' : QuicConn} {guards : List Guard}

theorem held_new (token : Token) (q : Connection) : Held (.new token q) [] := by
  refine ⟨by simp, fun _ ↦ rfl, ?_, ?_, rfl, by simp [QuicConn.new]⟩
  · intro h
    cases h
  · intro h
    exact absurd rfl h

theorem Held.retries_ne_none (h : Held c guards) : ∀ k ∈ c.reties, k ≠ .none := by
  rintro k hk rfl
  exact absurd (h.retries _ hk) (by decide)

theorem Held.congr (h : Held c guards) (htoken : c'.token = c.token)
    (hlocker : c'.locker = c.locker) (hcount : c'.lockCount = c.lockCount)
    (hreaders : c'.readLockCount = c.readLockCount) (hlabel : c'.wrapped.label = c.wrapped.label)
    (hreties : ∀ k ∈ c'.reties, k.needRetry = true) : Held c' guards where
  lock := by simpa only [htoken, hcount, hlabel] using h.lock
  idle := by simpa only [hlocker] using h.idle
  shared := by simpa only [hlocker] using h.shared
  exclusive := by simpa only [hlocker] using h.exclusive
  readers := by simpa only [hreaders] using h.readers
  retries := hreties

theorem Held.evolves {s s' : Ctx} {calls : List Call} {obs : List Obs} (h : Held s.conn guards)
    (he : Evolves s s' calls obs) (hreties : ∀ k ∈ s'.conn.reties, k.needRetry = true) :
    Held s'.conn guards :=
  h.congr he.token he.locker he.lockCount he.readLockCount (by rw [he.wrapped]; rfl) hreties

/-- The same connection later on: quiche was only called. -/
structure Continues (c c' : QuicConn) : Prop where
  token : c'.token = c.token
  wrapped : ∃ calls, c'.wrapped = c.wrapped.after calls

theorem Continues.of_wrapped_eq (htoken : c'.token = c.token) (hwrapped : c'.wrapped = c.wrapped) :
    Continues c c' :=
  ⟨htoken, [], by rw [hwrapped, Connection.after_nil]⟩

theorem Continues.trans {c'' : QuicConn} (h : Continues c c') (h' : Continues c' c'') :
    Continues c c'' := by
  obtain ⟨htoken, xs, hxs⟩ := h
  obtain ⟨htoken', ys, hys⟩ := h'
  exact ⟨htoken'.trans htoken, xs ++ ys, by rw [hys, hxs, Connection.after_after]⟩

theorem continues_of_evolves {s s' : Ctx} {calls : List Call} {obs : List Obs}
    (he : Evolves s s' calls obs) : Continues s.conn s'.conn :=
  ⟨he.token, calls, he.wrapped⟩

theorem Held.readLockCount_eq (h : Held c guards) (hl : c.locker = .readLock) :
    c.readLockCount = guards.length := by
  rw [h.readers, List.countP_eq_length]
  exact fun g hg ↦ by simp [(h.shared hl).2 g hg]

theorem Held.locker_eq_none_iff (h : Held c guards) : c.locker = .none ↔ guards = [] := by
  refine ⟨h.idle, ?_⟩
  intro hnil
  by_contra hl
  by_cases hr : c.locker = .readLock
  · exact (h.shared hr).1 hnil
  · obtain ⟨g, hg, -⟩ := h.exclusive hl hr
    simp [hnil] at hg

section TryLock

theorem refuse_reties (c : QuicConn) (kind k : LocKind) :
    k ∈ (c.refuse kind).reties ↔ k ∈ c.reties ∨ k = kind ∧ kind.needRetry = true := by
  unfold QuicConn.refuse
  cases hk : kind.needRetry
  · simp
  · simp [or_comm]

theorem Held.refuse (h : Held c guards) (kind : LocKind) : Held (c.refuse kind) guards := by
  have hsame : c.refuse kind = { c with reties := (c.refuse kind).reties } := by
    unfold QuicConn.refuse
    cases kind.needRetry <;> rfl
  have hret : ∀ k ∈ (c.refuse kind).reties, k.needRetry = true := by
    intro k hk
    rcases (refuse_reties c kind k).mp hk with hk | ⟨rfl, hk⟩
    · exact h.retries k hk
    · exact hk
  rw [hsame]
  exact h.congr rfl rfl rfl rfl rfl hret

theorem continues_refuse (c : QuicConn) (kind : LocKind) : Continues c (c.refuse kind) := by
  unfold QuicConn.refuse
  cases kind.needRetry <;> exact .of_wrapped_eq rfl rfl

def grant (c : QuicConn) (kind : LocKind) : QuicConn :=
  { c with
    locker := kind
    readLockCount := c.readLockCount + if kind = .readLock then 1 else 0 }

def Grants (c : QuicConn) (kind : LocKind) : Prop :=
  c.locker = .none ∨ c.locker = .readLock ∧ kind = .readLock

theorem tryLockPrv_free (h : c.locker = .none) (kind : LocKind) (hk : kind ≠ .readLock) :
    c.tryLockPrv kind = .ok (.ok c.context, { c with locker := kind }) := by
  simp only [QuicConn.tryLockPrv, h, hk, if_false, pure_eq_ok, ok_bind]
  rfl

theorem not_grants_of_locked (h : c.locker ≠ .none) {kind : LocKind} (hk : kind ≠ .readLock) :
    ¬ Grants c kind := by
  rintro (hl | ⟨-, hr⟩)
  · exact h hl
  · exact hk hr

theorem tryLockPrv_grants (h : Held c guards) {kind : LocKind} (hg : Grants c kind) :
    c.tryLockPrv kind = .ok (.ok c.context, grant c kind) := by
  rcases hg with hl | ⟨hl, rfl⟩
  · have hr : c.readLockCount = 0 := by simp [h.readers, h.idle hl]
    by_cases hk : kind = .readLock
    · simp only [QuicConn.tryLockPrv, hl, hk, if_true, assert_of hr, ok_bind, pure_eq_ok, grant]
      rfl
    · simp only [QuicConn.tryLockPrv, hl, hk, if_false, ok_bind, pure_eq_ok, grant]
      rfl
  · have hr : c.readLockCount > 0 := by
      rw [h.readLockCount_eq hl]
      exact List.length_pos_of_ne_nil (h.shared hl).1
    simp only [QuicConn.tryLockPrv, hl, if_true, assert_of hr, ok_bind, pure_eq_ok, grant]
    rfl

theorem tryLockPrv_refuses {kind : LocKind} (hg : ¬ Grants c kind) :
    c.tryLockPrv kind = .ok (.error .busy, c.refuse kind) := by
  unfold Grants at hg
  cases hl : c.locker with
  | none => exact absurd (.inl hl) hg
  | readLock =>
    have hk : kind ≠ .readLock := fun hk ↦ hg (.inr ⟨hl, hk⟩)
    simp [QuicConn.tryLockPrv, hl, hk]
  | _ => simp [QuicConn.tryLockPrv, hl]

def guardOf (c : QuicConn) (kind : LocKind) : Guard := ⟨c.context, kind, c.wrapped.label⟩

theorem Held.grant (h : Held c guards) {kind : LocKind} (hk : kind ≠ .none) (hg : Grants c kind) :
    Held (grant c kind) (guardOf c kind :: guards) where
  lock := by
    intro g hmem
    rcases List.mem_cons.mp hmem with rfl | hmem
    · exact ⟨rfl, rfl, rfl⟩
    · exact h.lock g hmem
  idle := fun hl ↦ absurd hl hk
  shared := by
    rintro (hl : kind = .readLock)
    refine ⟨by simp, ?_⟩
    intro g hmem
    rcases List.mem_cons.mp hmem with rfl | hmem
    · exact hl
    · rcases hg with hn | ⟨hr, -⟩
      · simp [h.idle hn] at hmem
      · exact (h.shared hr).2 g hmem
  exclusive := by
    rintro - (hl : kind ≠ .readLock)
    have hn : c.locker = .none := hg.elim id fun hr ↦ absurd hr.2 hl
    exact ⟨_, by rw [h.idle hn], rfl⟩
  readers := by
    rw [List.countP_cons, ← h.readers]
    by_cases hr : kind = .readLock <;> simp [Locking.grant, guardOf, hr]
  retries := h.retries

end TryLock

section Release

def vacate (c : QuicConn) : QuicConn :=
  { c with lockCount := c.lockCount + 1, locker := .none, readLockCount := 0 }

theorem held_vacate (h : ∀ k ∈ c.reties, k.needRetry = true) : Held (vacate c) [] where
  lock := by simp
  idle _ := rfl
  shared hl := by cases hl
  exclusive hl := absurd rfl hl
  readers := rfl
  retries := h

theorem release_last (h : Held c guards) {g : Guard} (hg : g ∈ guards)
    (hlast : guards.erase g = []) : c.release g.lock.lockCount = .ok (vacate c) := by
  have hcount : c.lockCount = g.lock.lockCount := (h.lock g hg).2.1.symm
  have hne : c.locker ≠ .none := fun hl ↦ by simp [h.idle hl] at hg
  have hlen := List.length_erase_of_mem hg
  have hpos := List.length_pos_of_mem hg
  rw [hlast, List.length_nil] at hlen
  by_cases hl : c.locker = .readLock
  · have hr : c.readLockCount = 1 := by
      rw [h.readLockCount_eq hl]
      omega
    simp [QuicConn.release, assert_of hcount, hl, hr, checkedSub, vacate]
  · obtain ⟨g', rfl, hkind⟩ := h.exclusive hne hl
    have hr : c.readLockCount = 0 := by simp [h.readers, hkind, hl]
    simp [QuicConn.release, assert_of hne, assert_of hcount, hl, hr, vacate]

theorem release_shared (h : Held c guards) {g : Guard} (hg : g ∈ guards)
    (hrest : guards.erase g ≠ []) :
    c.release g.lock.lockCount = .ok { c with readLockCount := c.readLockCount - 1 } ∧
      Held { c with readLockCount := c.readLockCount - 1 } (guards.erase g) := by
  have hcount : c.lockCount = g.lock.lockCount := (h.lock g hg).2.1.symm
  have hne : c.locker ≠ .none := fun hl ↦ by simp [h.idle hl] at hg
  have hlen := List.length_erase_of_mem hg
  have hpos := List.length_pos_of_ne_nil hrest
  have hl : c.locker = .readLock := by
    by_contra hl
    obtain ⟨g', rfl, -⟩ := h.exclusive hne hl
    obtain rfl : g = g' := by simpa using hg
    simp at hrest
  have hread := h.readLockCount_eq hl
  have hall : ∀ g' ∈ guards.erase g, g'.kind = .readLock :=
    fun g' hg' ↦ (h.shared hl).2 g' (List.mem_of_mem_erase hg')
  constructor
  · have h1 : 1 ≤ c.readLockCount := by omega
    have h0 : c.readLockCount - 1 ≠ 0 := by omega
    simp [QuicConn.release, assert_of hcount, hl, checkedSub_of_le h1, h0]
  · refine ⟨fun g' hg' ↦ h.lock g' (List.mem_of_mem_erase hg'), fun hn ↦ absurd hn hne,
      fun _ ↦ ⟨hrest, hall⟩, fun _ hn ↦ absurd hl hn, ?_, h.retries⟩
    have hcnt : (guards.erase g).countP (fun g ↦ g.kind = .readLock) = (guards.erase g).length :=
      List.countP_eq_length.mpr fun g' hg' ↦ by simp [hall g' hg']
    rw [hcnt, hlen, ← hread]

def relock (c : QuicConn) (lockCount : ℕ) (locker : LocKind) (readLockCount : ℕ) : QuicConn :=
  { c with lockCount, locker, readLockCount }

theorem release_ok (h : Held c guards) {g : Guard} (hg : g ∈ guards) :
    ∃ n b k, c.release g.lock.lockCount = .ok (relock c n b k) ∧
      Held (relock c n b k) (guards.erase g) := by
  by_cases hlast : guards.erase g = []
  · refine ⟨_, _, _, release_last h hg hlast, ?_⟩
    rw [hlast]
    exact held_vacate h.retries
  · exact ⟨_, _, _, release_shared h hg hlast⟩

end Release

section Returning

theorem tryLockPrv_cases {kind : LocKind} {r : Except Error LockContext}
    (h : c.tryLockPrv kind = .ok (r, c')) :
    (∃ context n b k, r = .ok context ∧ c' = relock c n b k) ∨
      r = .error .busy ∧ c' = c.refuse kind := by
  by_cases hg : Grants c kind
  · rcases hg with hl | ⟨hl, rfl⟩
    · by_cases hk : kind = .readLock
      · simp only [QuicConn.tryLockPrv, hl, hk, if_true] at h
        obtain ⟨_, -, h⟩ := bind_ok h
        cases h
        exact .inl ⟨_, _, _, _, rfl, rfl⟩
      · simp only [QuicConn.tryLockPrv, hl, hk, if_false] at h
        cases h
        exact .inl ⟨_, _, _, _, rfl, rfl⟩
    · simp only [QuicConn.tryLockPrv, hl, if_true] at h
      obtain ⟨_, -, h⟩ := bind_ok h
      cases h
      exact .inl ⟨_, _, _, _, rfl, rfl⟩
  · rw [tryLockPrv_refuses hg] at h
    cases h
    exact .inr ⟨rfl, rfl⟩

theorem release_cases {n : ℕ} (h : c.release n = .ok c') : ∃ m b k, c' = relock c m b k := by
  obtain ⟨_, -, h⟩ := bind_ok h
  obtain ⟨_, -, h⟩ := bind_ok h
  split at h
  · obtain ⟨k, -, h⟩ := bind_ok h
    dsimp only at h
    split at h
    · cases h
      exact ⟨_, _, _, rfl⟩
    · cases h
      exact ⟨_, _, _, rfl⟩
  · cases h
    exact ⟨_, _, _, rfl⟩

end Returning

end ZeroRtt.Poll.Locking
