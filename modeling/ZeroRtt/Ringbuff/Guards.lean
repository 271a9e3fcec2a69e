import ZeroRtt.Ringbuff.ZeroCopy

namespace ZeroRtt.Ringbuff.Guards

open ZeroRtt.Lib.Panics ZeroRtt.Lib.Rings ZeroRtt.Lib.Runs
open ZeroRtt.Ringbuff.RingBuf (Holds readable_eq)
open ZeroRtt.Ringbuff.ZeroCopy (Action)

/-- The read cursor is not ahead of the write cursor, nor more than the capacity
behind it. -/
def Ordered (r : RingBuf) : Prop :=
  r.readPos ≤ r.writePos ∧ r.writePos ≤ r.readPos + r.memoryBlock.length

/-- The guard of a call is exact: the call returns iff the amount is within the
limit, a call that panics leaves the cursors alone, and either leaves them in order. -/
structure Exact (r : RingBuf) (amt : ℕ) (limit : Rust ℕ) (call : Rust Unit × RingBuf) : Prop where
  returns_iff : call.1 = .ok () ↔ ∃ n, limit = .ok n ∧ amt ≤ n
  rejected : call.1 ≠ .ok () → call.2.readPos = r.readPos ∧ call.2.writePos = r.writePos
  ordered : Ordered call.2

/-- The ring that a call leaves in a release build; a panic of the guard of a
cursor leaves a ring too. -/
def step (r : RingBuf) : Action → Rust RingBuf
  | .read buf => return (← r.read buf .release).2.2
  | .write buf => return (← r.write buf .release).2
  | .fill b => r.fill b .release
  | .readableConsume amt => return (r.readableConsume amt .release).2
  | .writableConsume amt => return (r.writableConsume amt .release).2

/-- No more is consumed than there is, and nothing is put in once the sum that
bounds the write cursor wraps around. -/
def Guarded (r : RingBuf) : Action → Prop
  | .read _ | .fill _ => True
  | .write _ => r.readPos + r.memoryBlock.length < 2 ^ 64
  | .readableConsume amt => ∃ n, r.readable .release = .ok n ∧ amt ≤ n
  | .writableConsume amt =>
    (∃ n, r.writable .release = .ok n ∧ amt ≤ n) ∧ r.readPos + r.memoryBlock.length < 2 ^ 64

section Consuming

variable {r : RingBuf} {c amt : ℕ} {q : Bytes}

/-- The wrapping difference is right even where the sum has wrapped around. -/
theorem writable_release (h : Holds r c q) (hc : c < 2 ^ 64) :
    r.writable .release = .ok (c - q.length) := by
  have hlength := h.length_eq
  have hstart := h.start_le
  have hfits := h.fits
  have hbounded := h.bounded
  simp only [RingBuf.writable, Build.add, Build.sub, ok_bind, h.capacity, Except.ok.injEq]
  omega

theorem Holds.ordered (h : Holds r c q) : Ordered r := by
  refine ⟨h.start_le, ?_⟩
  rw [h.capacity]
  exact h.fits

theorem assert_eq_ok_iff {p : Prop} [Decidable p] : assert p = .ok () ↔ p := by
  unfold assert
  split <;> simp [*]

theorem readableConsume_exact (h : Holds r c q) (hamt : amt ≤ q.length) :
    Exact r amt (r.readable .release) (r.readableConsume amt .release) := by
  rw [RingBuf.readableConsume_eq .release h hamt, readable_eq h]
  refine ⟨?_, ?_, Holds.ordered (h.drop hamt)⟩
  · exact iff_of_true rfl ⟨_, rfl, hamt⟩
  · exact fun hne ↦ absurd rfl hne

/-- An amount beyond the readable bytes is let through if the cursor wraps around,
and else moves the cursor beyond the other one before the panic. -/
theorem readableConsume_inexact (h : Holds r c q) (hlt : amt < 2 ^ 64) (hamt : ¬ amt ≤ q.length) :
    ¬ Exact r amt (r.readable .release) (r.readableConsume amt .release) := by
  intro hexact
  have hlength := h.length_eq
  have hstart := h.start_le
  have hbounded := h.bounded
  by_cases hwrap : r.readPos + amt < 2 ^ 64
  · have hordered := hexact.ordered.1
    simp only [RingBuf.readableConsume, Build.add, Nat.mod_eq_of_lt hwrap] at hordered
    omega
  · have hreturns : (r.readableConsume amt .release).1 = .ok () := by
      have hle : ¬ (r.readPos + amt) % 2 ^ 64 > r.writePos := by omega
      simp only [RingBuf.readableConsume, Build.add, assert_of hle]
    obtain ⟨n, hn, hle⟩ := hexact.returns_iff.mp hreturns
    rw [readable_eq h] at hn
    cases hn
    exact hamt hle

theorem writableConsume_exact (h : Holds r c q) (hc : c < 2 ^ 64) (hroom : r.readPos + c < 2 ^ 64)
    (hamt : amt ≤ c - q.length) :
    Exact r amt (r.writable .release) (r.writableConsume amt .release) := by
  have hlength := h.length_eq
  have hstart := h.start_le
  have hle := h.length_le
  rw [RingBuf.writableConsume_eq .release h hroom (by omega), writable_release h hc]
  refine ⟨?_, ?_, ?_⟩
  · exact iff_of_true rfl ⟨_, rfl, hamt⟩
  · exact fun hne ↦ absurd rfl hne
  · constructor
    · dsimp only
      omega
    · dsimp only
      rw [h.capacity]
      omega

theorem writableConsume_inexact (h : Holds r c q) (hc : c < 2 ^ 64) (hlt : amt < 2 ^ 64)
    (hamt : ¬ (amt ≤ c - q.length ∧ r.readPos + c < 2 ^ 64)) :
    ¬ Exact r amt (r.writable .release) (r.writableConsume amt .release) := by
  intro hexact
  have hlength := h.length_eq
  have hstart := h.start_le
  have hbounded := h.bounded
  have hfits := h.fits
  have hcapacity := h.capacity
  have hle : r.readPos ≤ (r.writePos + amt) % 2 ^ 64 := hexact.ordered.1
  have hle' : (r.writePos + amt) % 2 ^ 64 ≤ r.readPos + c := by
    rw [← hcapacity]
    exact hexact.ordered.2
  have hreturns : amt ≤ c - q.length ↔
      ¬ (r.readPos + c) % 2 ^ 64 < (r.writePos + amt) % 2 ^ 64 := by
    have hiff := hexact.returns_iff
    simp only [RingBuf.writableConsume, Build.add, ok_bind, hcapacity, assert_eq_ok_iff,
      writable_release h hc] at hiff
    rw [hiff]
    simp
  have hrejected : (r.readPos + c) % 2 ^ 64 < (r.writePos + amt) % 2 ^ 64 →
      (r.writePos + amt) % 2 ^ 64 = r.writePos := by
    intro hpanics
    refine (hexact.rejected ?_).2
    simp only [RingBuf.writableConsume, Build.add, ok_bind, hcapacity, ne_eq, assert_eq_ok_iff]
    omega
  omega

theorem readableConsume_exact_iff (h : Holds r c q) (hlt : amt < 2 ^ 64) :
    Exact r amt (r.readable .release) (r.readableConsume amt .release) ↔
      Guarded r (.readableConsume amt) := by
  have hguarded : Guarded r (.readableConsume amt) ↔ amt ≤ q.length := by
    simp [Guarded, readable_eq h]
  rw [hguarded]
  constructor
  · intro hexact
    by_contra hamt
    exact readableConsume_inexact h hlt hamt hexact
  · exact readableConsume_exact h

theorem writableConsume_exact_iff (h : Holds r c q) (hc : c < 2 ^ 64) (hlt : amt < 2 ^ 64) :
    Exact r amt (r.writable .release) (r.writableConsume amt .release) ↔
      Guarded r (.writableConsume amt) := by
  have hguarded : Guarded r (.writableConsume amt) ↔
      amt ≤ c - q.length ∧ r.readPos + c < 2 ^ 64 := by
    simp [Guarded, writable_release h hc, h.capacity]
  rw [hguarded]
  constructor
  · intro hexact
    by_contra hamt
    exact writableConsume_inexact h hc hlt hamt hexact
  · rintro ⟨hamt, hroom⟩
    exact writableConsume_exact h hc hroom hamt

end Consuming

section Runs

variable {r r' : RingBuf} {c : ℕ} {q : Bytes}

theorem Ordered.holds (h : Ordered r) (hcapacity : r.memoryBlock.length = c) (hpos : 0 < c)
    (hbounded : r.writePos < 2 ^ 64) : ∃ q, Holds r c q :=
  ⟨_, hcapacity, hpos, h.1, by rw [← hcapacity]; exact h.2, hbounded, rfl⟩

theorem step_holds (h : Holds r c q) (hc : c < 2 ^ 64) {a : Action} (ha : Guarded r a)
    (hstep : step r a = .ok r') : ∃ q', Holds r' c q' := by
  cases a with
  | read buf =>
    obtain ⟨r₁, hread, hheld, -⟩ := RingBuf.read_eq h buf .release
    simp only [step, hread, ok_bind, pure_eq_ok] at hstep
    cases hstep
    exact ⟨_, hheld⟩
  | write buf =>
    simp only [Guarded, h.capacity] at ha
    obtain ⟨r₁, hwrite, hheld, -⟩ := RingBuf.write_eq h ha buf .release
    simp only [step, hwrite, ok_bind, pure_eq_ok] at hstep
    cases hstep
    exact ⟨_, hheld⟩
  | fill b =>
    obtain ⟨range, -, hstep⟩ := bind_ok hstep
    obtain ⟨part, -, hstep⟩ := bind_ok hstep
    obtain ⟨filled, -, hstep⟩ := bind_ok hstep
    obtain ⟨mem, hmem, hstep⟩ := bind_ok hstep
    cases hstep
    have hlength : mem.length = c := (copyFromSlice_length hmem).trans h.capacity
    exact ⟨_, hlength, h.pos, h.start_le, h.fits, h.bounded, rfl⟩
  | readableConsume amt =>
    obtain ⟨n, hn, hamt⟩ := ha
    rw [readable_eq h] at hn
    cases hn
    simp only [step, RingBuf.readableConsume_eq .release h hamt, pure_eq_ok] at hstep
    cases hstep
    exact ⟨_, h.drop hamt⟩
  | writableConsume amt =>
    obtain ⟨⟨n, hn, hamt⟩, hroom⟩ := ha
    rw [writable_release h hc] at hn
    cases hn
    rw [h.capacity] at hroom
    have hordered := (writableConsume_exact h hc hroom hamt).ordered
    have hlength := h.length_eq
    have hle := h.length_le
    have hstart := h.start_le
    have hsum : q.length + amt ≤ c := by omega
    simp only [step, RingBuf.writableConsume_eq .release h hroom hsum, pure_eq_ok] at hstep hordered
    cases hstep
    exact hordered.holds h.capacity h.pos (by dsimp only; omega)

theorem run_holds (h : Holds r c q) (hc : c < 2 ^ 64) (hrun : Run step Guarded r r') :
    ∃ q', Holds r' c q' := by
  induction hrun with
  | refl => exact ⟨q, h⟩
  | tail _ ha hstep ih =>
    obtain ⟨_, hheld⟩ := ih
    exact step_holds hheld hc ha hstep

end Runs

/-- As long as no more is consumed than there is, the cursors stay in order; and
these are the only amounts at which a guard is exact. -/
theorem guards_exact_iff (c : ℕ) (r₀ r : RingBuf) (hc : c < 2 ^ 64)
    (hnew : RingBuf.withCapacity c = .ok r₀) (hrun : Run step Guarded r₀ r) :
    Ordered r ∧ ∀ amt, amt < 2 ^ 64 →
      (Exact r amt (r.readable .release) (r.consume amt .release) ↔
        Guarded r (.readableConsume amt)) ∧
      (Exact r amt (r.writable .release) (r.writableConsume amt .release) ↔
        Guarded r (.writableConsume amt)) := by
  obtain ⟨q, h⟩ := run_holds (RingBuf.holds_of_withCapacity hnew) hc hrun
  refine ⟨Holds.ordered h, ?_⟩
  intro amt hlt
  exact ⟨readableConsume_exact_iff h hlt, writableConsume_exact_iff h hc hlt⟩

theorem run_emptied : Run step Guarded ⟨[0], 0, 0⟩ ⟨[7], 1, 1⟩ := by
  have hroom : 0 + 1 < 2 ^ 64 := by decide
  exact .tail (.tail (.refl _) (i := .write [7]) hroom rfl) (i := .readableConsume 1)
    ⟨1, rfl, le_rfl⟩ rfl

/-- A ring that has given its byte away takes `consume(usize::MAX)` and gives the
byte away again. -/
theorem guards_exact_iff_example :
    ∃ r₀ r, RingBuf.withCapacity 1 = .ok r₀ ∧ Run step Guarded r₀ r ∧ Ordered r ∧
      r.readable .release = .ok 0 ∧
      ¬ Exact r (2 ^ 64 - 1) (r.readable .release) (r.consume (2 ^ 64 - 1) .release) := by
  obtain ⟨hordered, hexact⟩ := guards_exact_iff 1 ⟨[0], 0, 0⟩ ⟨[7], 1, 1⟩ (by decide) rfl run_emptied
  refine ⟨_, _, rfl, run_emptied, hordered, rfl, ?_⟩
  rw [(hexact (2 ^ 64 - 1) (by decide)).1]
  rintro ⟨n, hn, hle⟩
  cases hn
  revert hle
  decide

/-- An amount beyond the bytes of a ring is let through, and the one that is rejected
leaves the read cursor ahead of the write cursor. -/
theorem guards_not_exact :
    (∃ r₀ r r', RingBuf.withCapacity 1 = .ok r₀ ∧ Run step Guarded r₀ r ∧
      r.readable .release = .ok 0 ∧ r.consume (2 ^ 64 - 1) .release = (.ok (), r') ∧
      r'.readable .release = .ok 1) ∧
    ∃ r₀ r', RingBuf.withCapacity 1 = .ok r₀ ∧ r₀.readable .release = .ok 0 ∧
      r₀.consume 1 .release = (.error .assertion, r') ∧ ¬ r'.readPos ≤ r'.writePos := by
  refine ⟨⟨⟨[0], 0, 0⟩, ⟨[7], 1, 1⟩, ⟨[7], 0, 1⟩, rfl, run_emptied, rfl, rfl, rfl⟩, ?_⟩
  exact ⟨⟨[0], 0, 0⟩, ⟨[0], 1, 0⟩, rfl, rfl, rfl, by decide⟩

end ZeroRtt.Ringbuff.Guards
