import ZeroRtt.Api.Types
import ZeroRtt.Lib.Runs
import ZeroRtt.Ringbuff.RingBuf

namespace ZeroRtt.Ringbuff

open ZeroRtt.Lib.Panics ZeroRtt.Lib.Rings ZeroRtt.Lib.Runs
open ZeroRtt.Api.Types (Poll)

namespace RingBuf

def writableRange (r : RingBuf) (build : Build := .debug) : Rust (ℕ × ℕ) := do
  return (← r.writableRanges (← r.writable build) build).first

def readableRange (r : RingBuf) (build : Build := .debug) : Rust (ℕ × ℕ) := do
  return (← r.readableRanges (← r.readable build) build).first

def writableBuf (r : RingBuf) (build : Build := .debug) : Rust Bytes := do
  let range ← r.writableRange build
  slice r.memoryBlock range.1 range.2

def readableBuf (r : RingBuf) (build : Build := .debug) : Rust Bytes := do
  let range ← r.readableRange build
  slice r.memoryBlock range.1 range.2

/-- `writable_buf()[..b.len()].copy_from_slice(b)`. -/
def fill (r : RingBuf) (b : Bytes) (build : Build := .debug) : Rust RingBuf := do
  let range ← r.writableRange build
  let part ← slice r.memoryBlock range.1 range.2
  let part ← copyFromSlice part 0 b.length b
  return { r with memoryBlock := ← copyFromSlice r.memoryBlock range.1 range.2 part }

/-- The cursor is moved before it is checked: a call that panics leaves the ring
that is returned with the panic. -/
def readableConsume (r : RingBuf) (amt : ℕ) (build : Build := .debug) : Rust Unit × RingBuf :=
  match build.add r.readPos amt with
  | .error panic => (.error panic, r)
  | .ok readPos => (assert (¬ readPos > r.writePos), { r with readPos })

def writableConsume (r : RingBuf) (amt : ℕ) (build : Build := .debug) : Rust Unit × RingBuf :=
  match build.add r.writePos amt with
  | .error panic => (.error panic, r)
  | .ok writePos =>
    (do assert (¬ (← build.add r.readPos r.memoryBlock.length) < writePos), { r with writePos })

def pollFillBuf (r : RingBuf) (build : Build := .debug) :
    Rust (Poll (Except (IoError Empty) Bytes)) := do
  return .ready (.ok (← r.readableBuf build))

def consume (r : RingBuf) (amt : ℕ) (build : Build := .debug) : Rust Unit × RingBuf :=
  r.readableConsume amt build

section Specs

variable {r : RingBuf} {c : ℕ} {q : Bytes}

theorem ranges_first (h : Holds r c q) {p n limit : ℕ} (hc : n ≤ c) (hp : p + n ≤ limit)
    (hlimit : limit < 2 ^ 64) :
    ∃ ranges, r.ranges p (.ok limit) n = .ok ranges ∧
      ranges.first = (p % c, p % c + min n (c - p % c)) := by
  have hstart := Nat.mod_lt p h.pos
  by_cases hn : n = 0
  · have hsum : p + n < 2 ^ 64 := by omega
    have hend : p + n = p := by omega
    have hle : ¬ p > limit := by omega
    refine ⟨⟨(p % c, p % c), none⟩, ?_, by simp [hn]⟩
    simp only [ranges, Build.add_of_lt _ hsum, h.capacity, checkedRem_of_pos h.pos, ok_bind,
      hend, assert_of hle, if_pos hn, pure_eq_ok]
  · refine ⟨spread c p n, ranges_eq h (Nat.pos_of_ne_zero hn) hc hp hlimit, ?_⟩
    unfold spread
    split
    next hend =>
      have hmin : min n (c - p % c) = n := by omega
      rw [hmin]
    next hend =>
      have hmin : p % c + min n (c - p % c) = c := by omega
      rw [hmin]

theorem readableRange_eq (h : Holds r c q) :
    r.readableRange =
      .ok (r.readPos % c, r.readPos % c + min q.length (c - r.readPos % c)) := by
  have hlength := h.length_eq
  have hfits := h.fits
  have hstart := h.start_le
  obtain ⟨ranges, hranges, hfirst⟩ :=
    ranges_first h (p := r.readPos) (n := q.length) (by omega) (by omega) h.bounded
  simp only [readableRange, readable_eq h, readableRanges, hranges, ok_bind, hfirst, pure_eq_ok]

theorem writableRange_eq (h : Holds r c q) (hroom : r.readPos + c < 2 ^ 64) :
    r.writableRange =
      .ok (r.writePos % c, r.writePos % c + min (c - q.length) (c - r.writePos % c)) := by
  have hlength := h.length_eq
  have hfits := h.fits
  have hstart := h.start_le
  obtain ⟨ranges, hranges, hfirst⟩ :=
    ranges_first h (p := r.writePos) (n := c - q.length) (by omega) (by omega) hroom
  simp only [writableRange, writable_eq h hroom, writableRanges, h.capacity, Build.add_of_lt _ hroom,
    hranges, ok_bind, hfirst, pure_eq_ok]

theorem slice_window {mem : Bytes} {p n : ℕ} (hpos : 0 < mem.length) :
    slice mem (p % mem.length) (p % mem.length + min n (mem.length - p % mem.length)) =
      .ok (window mem p (min n (mem.length - p % mem.length))) := by
  have hlt := Nat.mod_lt p hpos
  have hend : p % mem.length + min n (mem.length - p % mem.length) ≤ mem.length := by omega
  rw [slice_of_le (Nat.le_add_right _ _) hend, window_of_lt hpos hend]

theorem readableBuf_eq (h : Holds r c q) :
    r.readableBuf = .ok (q.take (c - r.readPos % c)) := by
  have hpos := h.pos
  have hlength := h.length_eq
  have hpart : q.take (c - r.readPos % c) =
      window r.memoryBlock r.readPos (min q.length (c - r.readPos % c)) := by
    rw [hlength, Nat.min_comm, h.contents, window, window, List.take_take]
  rw [readableBuf, readableRange_eq h, ok_bind, hpart, ← h.capacity]
  rw [← h.capacity] at hpos
  exact slice_window hpos

theorem writableBuf_eq (h : Holds r c q) (hroom : r.readPos + c < 2 ^ 64) :
    r.writableBuf =
      .ok (window r.memoryBlock r.writePos (min (c - q.length) (c - r.writePos % c))) := by
  have hpos := h.pos
  rw [writableBuf, writableRange_eq h hroom, ok_bind, ← h.capacity]
  rw [← h.capacity] at hpos
  exact slice_window hpos

theorem writableBuf_panics (h : Holds r c q) (hroom : ¬ r.readPos + c < 2 ^ 64) :
    r.writableBuf = .error .integerOverflow := by
  simp only [writableBuf, writableRange, writable, Build.add, h.capacity, checkedAdd, hroom, if_false,
    error_bind]

theorem fill_eq (h : Holds r c q) (hroom : r.readPos + c < 2 ^ 64) {b : Bytes}
    (hb : b.length ≤ min (c - q.length) (c - r.writePos % c)) :
    ∃ mem, r.fill b = .ok { r with memoryBlock := mem } ∧
      Overwrites r.memoryBlock mem r.writePos b := by
  obtain ⟨n, hn⟩ : ∃ n, n = min (c - q.length) (c - r.writePos % c) := ⟨_, rfl⟩
  have hpos := h.pos
  have hcapacity := h.capacity
  have hlt := Nat.mod_lt r.writePos hpos
  have hpart : slice r.memoryBlock (r.writePos % c) (r.writePos % c + n) =
      .ok (window r.memoryBlock r.writePos n) := by
    rw [hn, ← hcapacity]
    exact slice_window (by omega)
  have hpartLength : (window r.memoryBlock r.writePos n).length = n := window_length (by omega)
  obtain ⟨filled, hfilled⟩ : ∃ filled,
      filled = b ++ (window r.memoryBlock r.writePos n).drop b.length := ⟨_, rfl⟩
  have hfilledLength : filled.length = n := by
    rw [hfilled, List.length_append, List.length_drop, hpartLength]
    omega
  have hcopy : copyFromSlice (window r.memoryBlock r.writePos n) 0 b.length b = .ok filled := by
    rw [copyFromSlice_eq (Nat.zero_add _).symm (by omega), splice_zero, hfilled]
  have hback : copyFromSlice r.memoryBlock (r.writePos % c) (r.writePos % c + n) filled =
      .ok (splice r.memoryBlock (r.writePos % c) filled) :=
    copyFromSlice_eq (by omega) (by omega)
  refine ⟨splice r.memoryBlock (r.writePos % c) filled, ?_, ?_⟩
  · simp only [fill, writableRange_eq h hroom, ← hn, ok_bind, hpart, hcopy, hback, pure_eq_ok]
  · apply Overwrites.of_rest (n := n)
    rw [← hfilled, ← hcapacity]
    exact overwrites_splice (by omega) (by rw [hcapacity]; omega)

theorem readableConsume_eq (build : Build) (h : Holds r c q) {k : ℕ} (hk : k ≤ q.length) :
    r.readableConsume k build = (.ok (), { r with readPos := r.readPos + k }) := by
  have hlength := h.length_eq
  have hstart := h.start_le
  have hbounded := h.bounded
  have hadd : build.add r.readPos k = .ok (r.readPos + k) := build.add_of_lt (by omega)
  have hle : ¬ r.readPos + k > r.writePos := by omega
  simp only [readableConsume, hadd, assert_of hle]

theorem writableConsume_eq (build : Build) (h : Holds r c q) (hroom : r.readPos + c < 2 ^ 64)
    {k : ℕ} (hk : q.length + k ≤ c) :
    r.writableConsume k build = (.ok (), { r with writePos := r.writePos + k }) := by
  have hlength := h.length_eq
  have hstart := h.start_le
  have hadd : build.add r.writePos k = .ok (r.writePos + k) := build.add_of_lt (by omega)
  have hlimit : build.add r.readPos r.memoryBlock.length = .ok (r.readPos + c) := by
    rw [h.capacity]
    exact build.add_of_lt hroom
  have hle : ¬ r.readPos + c < r.writePos + k := by omega
  simp only [writableConsume, hadd, hlimit, ok_bind, assert_of hle]

end Specs

end RingBuf

namespace ZeroCopy

open RingBuf (Holds)

/-- A ring beside the queue of the bytes that were put in and not taken out yet. -/
structure Queued where
  ring : RingBuf
  queue : Bytes

inductive Action
  | read (buf : Bytes)
  | write (buf : Bytes)
  | fill (b : Bytes)
  | readableConsume (amt : ℕ)
  | writableConsume (amt : ℕ)

def transferred : Except (IoError Empty) ℕ → ℕ
  | .ok n => n
  | .error _ => 0

/-- One call. The queue is not read by the ring: it loses at its front as many
bytes as were read or consumed, and gets behind it the bytes that were written or
found in the writable memory when they were consumed. -/
def step (s : Queued) : Action → Rust Queued
  | .read buf => do
    let (result, _, ring) ← s.ring.read buf
    return ⟨ring, s.queue.drop (transferred result)⟩
  | .write buf => do
    let (result, ring) ← s.ring.write buf
    return ⟨ring, s.queue ++ buf.take (transferred result)⟩
  | .fill b => return { s with ring := ← s.ring.fill b }
  | .readableConsume amt => do
    let (result, ring) := s.ring.readableConsume amt
    result
    return ⟨ring, s.queue.drop amt⟩
  | .writableConsume amt => do
    let part ← s.ring.writableBuf
    let (result, ring) := s.ring.writableConsume amt
    result
    return ⟨ring, s.queue ++ part.take amt⟩

/-- Only the slice just obtained is filled, and no more of it is consumed than
there is. -/
def Enabled (s : Queued) : Action → Prop
  | .read _ | .write _ => True
  | .fill b => ∃ part, s.ring.writableBuf = .ok part ∧ b.length ≤ part.length
  | .readableConsume amt => ∃ part, s.ring.readableBuf = .ok part ∧ amt ≤ part.length
  | .writableConsume amt => ∃ part, s.ring.writableBuf = .ok part ∧ amt ≤ part.length

section Steps

variable {s s' : Queued} {r : RingBuf} {c : ℕ} {q part b : Bytes}

theorem room_of_writableBuf (h : Holds r c q) (hpart : r.writableBuf = .ok part) :
    r.readPos + c < 2 ^ 64 := by
  by_contra hroom
  rw [RingBuf.writableBuf_panics h hroom] at hpart
  cases hpart

theorem room_of_write {buf : Bytes} {result} (h : Holds r c q) (hwrite : r.write buf = .ok result) :
    r.readPos + c < 2 ^ 64 := by
  by_contra hroom
  rw [RingBuf.write_panics h hroom] at hwrite
  cases hwrite

theorem writableBuf_length (h : Holds r c q) (hpart : r.writableBuf = .ok part) :
    part.length = min (c - q.length) (c - r.writePos % c) := by
  rw [RingBuf.writableBuf_eq h (room_of_writableBuf h hpart)] at hpart
  cases hpart
  apply window_length
  rw [h.capacity]
  omega

theorem readableBuf_length (h : Holds r c q) (hpart : r.readableBuf = .ok part) :
    part.length = min (c - r.readPos % c) q.length := by
  rw [RingBuf.readableBuf_eq h] at hpart
  cases hpart
  exact List.length_take

theorem Holds.overwrite (h : Holds r c q) {mem : Bytes} (hb : q.length + b.length ≤ c)
    (hover : Overwrites r.memoryBlock mem r.writePos b) :
    Holds { r with memoryBlock := mem } c q := by
  have hlength := h.length_eq
  have hstart := h.start_le
  have hcapacity := h.capacity
  have hmem : mem.length = r.memoryBlock.length := hover.length_eq (by omega)
  have hsplit : r.writePos = r.readPos + (r.writePos - r.readPos) := by omega
  have hcontents : q = window mem r.readPos (r.writePos - r.readPos) := by
    rw [hsplit] at hover
    have hwindow := hover.window (by omega)
    rw [← h.contents] at hwindow
    rw [← window_take (n := b.length) (by omega), hwindow, List.take_left' hlength]
  exact ⟨hmem.trans hcapacity, h.pos, hstart, h.fits, h.bounded, hcontents⟩

theorem Holds.consume (h : Holds r c q) {amt : ℕ} (hpart : r.writableBuf = .ok part)
    (hamt : amt ≤ part.length) :
    Holds { r with writePos := r.writePos + amt } c (q ++ part.take amt) := by
  have hroom := room_of_writableBuf h hpart
  have hlength := writableBuf_length h hpart
  have hle := h.length_le
  have htake : (part.take amt).length = amt := List.length_take_of_le hamt
  have hover : Overwrites r.memoryBlock r.memoryBlock r.writePos (part.take amt) := by
    rw [RingBuf.writableBuf_eq h hroom] at hpart
    cases hpart
    rw [window, List.take_take]
    exact overwrites_window _ _ _
  have hheld := h.append hroom (by omega) hover
  rw [htake] at hheld
  exact hheld

theorem step_holds (h : Holds s.ring c s.queue) {a : Action} (ha : Enabled s a)
    (hstep : step s a = .ok s') : Holds s'.ring c s'.queue := by
  cases a with
  | read buf =>
    simp only [step, RingBuf.read_moves h, ok_bind, transferred, pure_eq_ok] at hstep
    cases hstep
    exact h.drop (Nat.min_le_left _ _)
  | write buf =>
    obtain ⟨result, hresult, hstep⟩ := bind_ok hstep
    obtain ⟨ring, hwrite, hheld, -, -⟩ := RingBuf.write_eq h (room_of_write h hresult) buf
    cases hwrite.symm.trans hresult
    cases hstep
    exact hheld
  | fill b =>
    obtain ⟨part, hpart, hb⟩ := ha
    have hroom := room_of_writableBuf h hpart
    have hlength := writableBuf_length h hpart
    have hle := h.length_le
    obtain ⟨mem, hfill, hover⟩ := RingBuf.fill_eq h hroom (b := b) (by omega)
    simp only [step, hfill, ok_bind, pure_eq_ok] at hstep
    cases hstep
    exact Holds.overwrite h (by omega) hover
  | readableConsume amt =>
    obtain ⟨part, hpart, hamt⟩ := ha
    have hlength := readableBuf_length h hpart
    have hle : amt ≤ s.queue.length := by omega
    simp only [step, RingBuf.readableConsume_eq .debug h hle, ok_bind, pure_eq_ok] at hstep
    cases hstep
    exact h.drop hle
  | writableConsume amt =>
    obtain ⟨part, hpart, hamt⟩ := ha
    have hroom := room_of_writableBuf h hpart
    have hlength := writableBuf_length h hpart
    have hle := h.length_le
    have hsum : s.queue.length + amt ≤ c := by omega
    simp only [step, hpart, RingBuf.writableConsume_eq .debug h hroom hsum, ok_bind,
      pure_eq_ok] at hstep
    cases hstep
    exact Holds.consume h hpart hamt

theorem run_holds (h : Holds s.ring c s.queue) (hrun : Run step Enabled s s') :
    Holds s'.ring c s'.queue := by
  induction hrun with
  | refl => exact h
  | tail _ ha hstep ih => exact step_holds ih ha hstep

end Steps

section Agreement

variable {r : RingBuf} {c k : ℕ} {q part b buf : Bytes}

theorem readableBuf_eq_nil_iff (h : Holds r c q) (hpart : r.readableBuf = .ok part) :
    part = [] ↔ q = [] := by
  have hlength := readableBuf_length h hpart
  have hlt := Nat.mod_lt r.readPos h.pos
  rw [← List.length_eq_zero_iff, ← List.length_eq_zero_iff]
  omega

theorem writableBuf_eq_nil_iff (h : Holds r c q) (hpart : r.writableBuf = .ok part) :
    part = [] ↔ q.length = c := by
  have hlength := writableBuf_length h hpart
  have hlt := Nat.mod_lt r.writePos h.pos
  have hle := h.length_le
  rw [← List.length_eq_zero_iff]
  omega

theorem consume_eq_read (h : Holds r c q) (hpart : r.readableBuf = .ok part)
    (hk : k ≤ part.length) (hbuf : buf.length = k) :
    ∃ r', r.readableConsume k = (.ok (), r') ∧
      r.read buf = .ok (.ok k, part.take k, r') := by
  have hlength := readableBuf_length h hpart
  have hle : k ≤ q.length := by omega
  have hsize : min q.length buf.length = k := by omega
  have htake : part.take k = q.take k := by
    rw [RingBuf.readableBuf_eq h] at hpart
    cases hpart
    rw [List.take_take, Nat.min_eq_left (by omega)]
  refine ⟨_, RingBuf.readableConsume_eq .debug h hle, ?_⟩
  rw [RingBuf.read_moves h]
  simp only [fetch, hsize, htake]
  rw [← hbuf, List.drop_length, List.append_nil]

theorem fill_eq_write (h : Holds r c q) (hpart : r.writableBuf = .ok part)
    (hb : b.length ≤ part.length) :
    ∃ r₁ r', r.fill b = .ok r₁ ∧ r₁.writableConsume b.length = (.ok (), r') ∧
      r.write b = .ok (.ok b.length, r') := by
  have hroom := room_of_writableBuf h hpart
  have hlength := writableBuf_length h hpart
  have hle := h.length_le
  have hsize : min (c - q.length) b.length = b.length := by omega
  obtain ⟨mem, hfill, hover⟩ := RingBuf.fill_eq h hroom (b := b) (by omega)
  obtain ⟨mem', hwrite, hover'⟩ := RingBuf.write_moves h hroom b
  simp only [offer, hsize, List.take_length] at hwrite hover'
  have hmem : mem' = mem := hover'.unique hover
  rw [hmem] at hwrite
  have hfilled : Holds { r with memoryBlock := mem } c q :=
    Holds.overwrite h (by omega) hover
  exact ⟨_, _, hfill, RingBuf.writableConsume_eq .debug hfilled hroom (by omega), hwrite⟩

end Agreement

section Draining

variable {r : RingBuf} {c n : ℕ} {q : Bytes}

/-- Rounds of `poll_fill_buf` and `consume` of the whole slice, until it is empty. -/
def drain : ℕ → RingBuf → Rust (List Bytes × RingBuf)
  | 0, r => return ([], r)
  | n + 1, r => do
    match ← r.pollFillBuf with
    | .ready (.ok part) =>
      if part = [] then return ([], r)
      let (result, r) := r.consume part.length
      result
      let (parts, r) ← drain n r
      return (part :: parts, r)
    | _ => return ([], r)

theorem drain_empty (h : Holds r c []) (n : ℕ) : drain n r = .ok ([], r) := by
  cases n with
  | zero => rfl
  | succ n =>
    simp only [drain, RingBuf.pollFillBuf, RingBuf.readableBuf_eq h, List.take_nil, ok_bind,
      pure_eq_ok, if_true]

theorem drain_round (h : Holds r c q) (hq : q ≠ []) {k : ℕ}
    (hk : k = min (c - r.readPos % c) q.length) {parts : List Bytes} {r' : RingBuf}
    (hrest : drain n { r with readPos := r.readPos + k } = .ok (parts, r')) :
    drain (n + 1) r = .ok (q.take k :: parts, r') := by
  have hpart : r.readableBuf = .ok (q.take k) := by
    rw [RingBuf.readableBuf_eq h, hk, ← List.take_take, List.take_length]
  have hne : q.take k ≠ [] := by
    rw [ne_eq, readableBuf_eq_nil_iff h hpart]
    exact hq
  have hlength : (q.take k).length = k := List.length_take_of_le (by omega)
  have hle : k ≤ q.length := by omega
  simp only [drain, RingBuf.pollFillBuf, hpart, RingBuf.consume, ok_bind, pure_eq_ok, hne, if_false,
    hlength, RingBuf.readableConsume_eq .debug h hle, hrest]

theorem drain_eq (h : Holds r c q) (hn : 2 ≤ n) :
    ∃ parts, drain n r = .ok (parts, { r with readPos := r.readPos + q.length }) ∧
      parts.length ≤ 2 ∧ parts.flatten = q := by
  obtain ⟨n, rfl⟩ : ∃ m, n = m + 2 := ⟨n - 2, by omega⟩
  by_cases hq : q = []
  · subst hq
    exact ⟨[], drain_empty h _, Nat.zero_le _, rfl⟩
  have hle := h.length_le
  have hlt := Nat.mod_lt r.readPos h.pos
  obtain ⟨k, hk⟩ : ∃ k, k = min (c - r.readPos % c) q.length := ⟨_, rfl⟩
  have hfirst : Holds { r with readPos := r.readPos + k } c (q.drop k) := h.drop (by omega)
  by_cases hrest : q.drop k = []
  · have hall : k = q.length := by
      rw [List.drop_eq_nil_iff] at hrest
      omega
    rw [hrest] at hfirst
    refine ⟨[q.take k], ?_, by simp, ?_⟩
    · rw [drain_round h hq hk (drain_empty hfirst _), hall]
    · rw [List.flatten_singleton, hall, List.take_length]
  · have hstart : (r.readPos + k) % c = 0 := by
      have hkc : r.readPos % c + k = c := by
        rw [List.drop_eq_nil_iff] at hrest
        omega
      rw [← Nat.mod_add_mod, hkc, Nat.mod_self]
    have hlength : (q.drop k).length = q.length - k := List.length_drop
    obtain ⟨m, hm⟩ : ∃ m, m = min (c - (r.readPos + k) % c) (q.drop k).length := ⟨_, rfl⟩
    have hall : k + m = q.length := by omega
    have hsecond : Holds { r with readPos := r.readPos + k + m } c [] := by
      have hdropped := hfirst.drop (k := m) (by omega)
      rw [List.drop_drop, hall, List.drop_length] at hdropped
      exact hdropped
    have htake : (q.drop k).take m = q.drop k := List.take_of_length_le (by omega)
    refine ⟨[q.take k, q.drop k], ?_, le_rfl, ?_⟩
    · rw [drain_round h hq hk (drain_round hfirst hrest hm (drain_empty hsecond n)), htake, ← hall,
        Nat.add_assoc]
    · simp

end Draining

/-- The slices are parts of the queue and of the room behind it, consuming is
reading, filling and consuming is writing, and two rounds drain the ring. Where the
sum that bounds the cursors overflows, the slice for writing panics as a write does. -/
theorem zero_copy_agrees (c : ℕ) (r₀ : RingBuf) (s : Queued)
    (hnew : RingBuf.withCapacity c = .ok r₀) (hrun : Run step Enabled ⟨r₀, []⟩ s) :
    s.ring.readable = .ok s.queue.length ∧
      (∃ part, s.ring.readableBuf = .ok part ∧ part <+: s.queue ∧ (part = [] ↔ s.queue = []) ∧
        ∀ k buf, k ≤ part.length → buf.length = k → ∃ r',
          s.ring.readableConsume k = (.ok (), r') ∧
          s.ring.read buf = .ok (.ok k, part.take k, r')) ∧
      ((∃ part, s.ring.writableBuf = .ok part ∧ (part = [] ↔ s.queue.length = c) ∧
          ∀ b, b.length ≤ part.length → ∃ r₁ r', s.ring.fill b = .ok r₁ ∧
            r₁.writableConsume b.length = (.ok (), r') ∧
            s.ring.write b = .ok (.ok b.length, r')) ∨
        2 ^ 64 ≤ s.ring.readPos + c ∧ s.ring.writableBuf = .error .integerOverflow ∧
          ∀ b, s.ring.write b = .error .integerOverflow) ∧
      (∀ n, 2 ≤ n → ∃ parts r', drain n s.ring = .ok (parts, r') ∧ parts.length ≤ 2 ∧
        parts.flatten = s.queue ∧ r'.readable = .ok 0 ∧
        ∀ buf, s.queue.length ≤ buf.length → s.ring.read buf =
          .ok (.ok s.queue.length, parts.flatten ++ buf.drop s.queue.length, r')) := by
  have h : Holds s.ring c s.queue := run_holds (RingBuf.holds_of_withCapacity hnew) hrun
  refine ⟨RingBuf.readable_eq h, ?_, ?_, ?_⟩
  · have hpart := RingBuf.readableBuf_eq h
    refine ⟨_, hpart, List.take_prefix _ _, readableBuf_eq_nil_iff h hpart, ?_⟩
    intro k buf hk hbuf
    exact consume_eq_read h hpart hk hbuf
  · by_cases hroom : s.ring.readPos + c < 2 ^ 64
    · have hpart := RingBuf.writableBuf_eq h hroom
      refine .inl ⟨_, hpart, writableBuf_eq_nil_iff h hpart, ?_⟩
      intro b hb
      exact fill_eq_write h hpart hb
    · exact .inr ⟨by omega, RingBuf.writableBuf_panics h hroom, RingBuf.write_panics h hroom⟩
  · intro n hn
    obtain ⟨parts, hdrain, hparts, hflatten⟩ := drain_eq h hn
    have hempty := h.drop (k := s.queue.length) le_rfl
    rw [List.drop_length] at hempty
    refine ⟨parts, _, hdrain, hparts, hflatten, RingBuf.readable_eq hempty, ?_⟩
    intro buf hbuf
    have hsize : min s.queue.length buf.length = s.queue.length := Nat.min_eq_left hbuf
    rw [RingBuf.read_moves h, hflatten]
    simp only [fetch, hsize, List.take_length]

theorem zero_copy_agrees_example :
    ∃ r₀ s, RingBuf.withCapacity 3 = .ok r₀ ∧ Run step Enabled ⟨r₀, []⟩ s ∧
      s.queue = [2, 3, 4] ∧ s.ring.readableBuf = .ok [2, 3] ∧ s.ring.writableBuf = .ok [] ∧
      ∃ parts r', drain 2 s.ring = .ok (parts, r') ∧ parts.length ≤ 2 ∧
        parts.flatten = s.queue := by
  obtain ⟨s, hs⟩ : ∃ s : Queued, s = ⟨⟨[4, 2, 3], 1, 4⟩, [2, 3, 4]⟩ := ⟨_, rfl⟩
  have hrun : Run step Enabled ⟨⟨[0, 0, 0], 0, 0⟩, []⟩ s := by
    rw [hs]
    refine .tail (.tail (.tail (.tail (.tail (.refl _) (i := .write [1, 2]) trivial rfl)
      (i := .fill [3]) ?_ rfl) (i := .writableConsume 1) ?_ rfl)
      (i := .readableConsume 1) ?_ rfl) (i := .write [4]) trivial rfl
    · exact ⟨_, rfl, by decide⟩
    · exact ⟨_, rfl, by decide⟩
    · exact ⟨_, rfl, by decide⟩
  obtain ⟨-, -, -, hdrain⟩ := zero_copy_agrees 3 _ s rfl hrun
  obtain ⟨parts, r', hdrain, hparts, hflatten, -, -⟩ := hdrain 2 le_rfl
  refine ⟨_, s, rfl, hrun, ?_, ?_, ?_, parts, r', hdrain, hparts, hflatten⟩
  · rw [hs]
  · rw [hs]
    rfl
  · rw [hs]
    rfl

end ZeroCopy

end ZeroRtt.Ringbuff
