import ZeroRtt.Lib.Panics
import ZeroRtt.Lib.Rings

namespace ZeroRtt.Ringbuff

open ZeroRtt.Lib.Panics ZeroRtt.Lib.Rings

/-- The memory and the two cursors, which only grow. -/
structure RingBuf where
  memoryBlock : Bytes
  readPos : ℕ
  writePos : ℕ

/-- `start..end`, and `..end` if the range goes on at the beginning. -/
structure Ranges where
  first : ℕ × ℕ
  second : Option ℕ

namespace RingBuf

def withCapacity (len : ℕ) : Rust RingBuf := do
  assert (len > 0)
  return ⟨List.replicate len 0, 0, 0⟩

/-- As either build compiles it, and likewise below. -/
def readable (r : RingBuf) (build : Build := .debug) : Rust ℕ := build.sub r.writePos r.readPos

def writable (r : RingBuf) (build : Build := .debug) : Rust ℕ := do
  build.sub (← build.add r.readPos r.memoryBlock.length) r.writePos

/-- The body of the two functions below, from a cursor on. -/
def ranges (r : RingBuf) (pos : ℕ) (limit : Rust ℕ) (size : ℕ) (build : Build := .debug) :
    Rust Ranges := do
  let endPos ← build.add pos size
  let limit ← limit
  assert (¬ endPos > limit)
  let start ← checkedRem pos r.memoryBlock.length
  let stop ← checkedRem endPos r.memoryBlock.length
  if size = 0 then return ⟨(start, stop), none⟩
  if start < stop then return ⟨(start, stop), none⟩
  return ⟨(start, r.memoryBlock.length), some stop⟩

def writableRanges (r : RingBuf) (writeSize : ℕ) (build : Build := .debug) : Rust Ranges :=
  r.ranges r.writePos (build.add r.readPos r.memoryBlock.length) writeSize build

def readableRanges (r : RingBuf) (readSize : ℕ) (build : Build := .debug) : Rust Ranges :=
  r.ranges r.readPos (.ok r.writePos) readSize build

def copyOut (memoryBlock buf : Bytes) : Ranges → Rust Bytes
  | ⟨first, some second⟩ => do
    let firstPart ← slice memoryBlock first.1 first.2
    let secondPart ← slice memoryBlock 0 second
    let buf ← copyFromSlice buf 0 firstPart.length firstPart
    copyFromSlice buf firstPart.length (firstPart.length + secondPart.length) secondPart
  | ⟨first, none⟩ => do
    let firstPart ← slice memoryBlock first.1 first.2
    copyFromSlice buf 0 firstPart.length firstPart

/-- Returns the number of bytes, the buffer and the ring. -/
def read (r : RingBuf) (buf : Bytes) (build : Build := .debug) :
    Rust (Except (IoError Empty) ℕ × Bytes × RingBuf) := do
  let readSize := min (← r.readable build) buf.length
  if readSize = 0 then return (.ok 0, buf, r)
  let buf ← copyOut r.memoryBlock buf (← r.readableRanges readSize build)
  return (.ok readSize, buf, { r with readPos := ← build.add r.readPos readSize })

def copyIn (memoryBlock buf : Bytes) : Ranges → Rust Bytes
  | ⟨first, some second⟩ => do
    let firstSource ← slice buf 0 (first.2 - first.1)
    let memoryBlock ← copyFromSlice memoryBlock first.1 first.2 firstSource
    let secondSource ← slice buf firstSource.length (firstSource.length + second)
    copyFromSlice memoryBlock 0 second secondSource
  | ⟨first, none⟩ => do
    let firstSource ← slice buf 0 (first.2 - first.1)
    copyFromSlice memoryBlock first.1 first.2 firstSource

def write (r : RingBuf) (buf : Bytes) (build : Build := .debug) :
    Rust (Except (IoError Empty) ℕ × RingBuf) := do
  let writeSize := min (← r.writable build) buf.length
  if writeSize = 0 then return (.ok 0, r)
  let memoryBlock ← copyIn r.memoryBlock buf (← r.writableRanges writeSize build)
  return (.ok writeSize, { r with memoryBlock, writePos := ← build.add r.writePos writeSize })

/-- The ring holds the bytes of a queue of capacity `c`. -/
structure Holds (r : RingBuf) (c : ℕ) (q : Bytes) : Prop where
  capacity : r.memoryBlock.length = c
  pos : 0 < c
  start_le : r.readPos ≤ r.writePos
  fits : r.writePos ≤ r.readPos + c
  bounded : r.writePos < 2 ^ 64
  contents : q = window r.memoryBlock r.readPos (r.writePos - r.readPos)

section Specs

variable {r : RingBuf} {c : ℕ} {q : Bytes} {build : Build}

theorem Holds.length_eq (h : Holds r c q) : q.length = r.writePos - r.readPos := by
  have hle := h.fits
  have hcapacity := h.capacity
  rw [h.contents]
  exact window_length (by omega)

theorem Holds.length_le (h : Holds r c q) : q.length ≤ c := by
  have hfits := h.fits
  rw [h.length_eq]
  omega

theorem readable_eq (h : Holds r c q) : r.readable build = .ok q.length := by
  rw [readable, build.sub_of_le h.start_le h.bounded, h.length_eq]

theorem writable_eq (h : Holds r c q) (hroom : r.readPos + c < 2 ^ 64) :
    r.writable build = .ok (c - q.length) := by
  have hle := h.fits
  have hsize : r.readPos + c - r.writePos = c - q.length := by
    have hstart := h.start_le
    rw [h.length_eq]
    omega
  rw [writable, h.capacity, build.add_of_lt hroom, ok_bind, build.sub_of_le hle hroom, hsize]

theorem add_mod_capacity {p n : ℕ} (hpos : 0 < c) (hn : n ≤ c) :
    (p + n) % c = if p % c + n < c then p % c + n else p % c + n - c := by
  have hlt := Nat.mod_lt p hpos
  rw [← Nat.mod_add_mod]
  split
  next hend => exact Nat.mod_eq_of_lt hend
  next hend =>
    rw [Nat.mod_eq_sub_mod (by omega)]
    exact Nat.mod_eq_of_lt (by omega)

/-- The ranges of `n` cells from position `p` on: they go on at the beginning of
the memory unless they end before its end. -/
def spread (c p n : ℕ) : Ranges :=
  if p % c + n < c then ⟨(p % c, p % c + n), none⟩ else ⟨(p % c, c), some (p % c + n - c)⟩

theorem ranges_eq (h : Holds r c q) {p n limit : ℕ} (hn : 0 < n) (hc : n ≤ c) (hp : p + n ≤ limit)
    (hlimit : limit < 2 ^ 64) : r.ranges p (.ok limit) n build = .ok (spread c p n) := by
  have hstart := Nat.mod_lt p h.pos
  have hsum : p + n < 2 ^ 64 := by omega
  simp only [ranges, build.add_of_lt hsum, h.capacity, checkedRem_of_pos h.pos, ok_bind,
    assert_of (Nat.not_lt.mpr hp), add_mod_capacity h.pos hc, hn.ne', if_false, spread]
  split
  · rw [if_pos (by omega)]
    rfl
  · rw [if_neg (by omega)]
    rfl

theorem copyFromSlice_eq {dst src : Bytes} {a b : ℕ} (hb : b = a + src.length)
    (hle : b ≤ dst.length) : copyFromSlice dst a b src = .ok (splice dst a src) := by
  subst hb
  rw [copyFromSlice, if_pos ⟨Nat.le_add_right .., hle⟩,
    if_pos (Nat.add_sub_cancel_left ..).symm]
  rfl

theorem slice_prefix {l : Bytes} {n : ℕ} (h : n ≤ l.length) : slice l 0 n = .ok (l.take n) := by
  rw [slice_of_le (Nat.zero_le n) h, List.drop_zero]

theorem copyOut_eq {mem buf : Bytes} {p n : ℕ} (hpos : 0 < mem.length) (hn : n ≤ mem.length)
    (hbuf : n ≤ buf.length) :
    copyOut mem buf (spread mem.length p n) = .ok (window mem p n ++ buf.drop n) := by
  have hlt := Nat.mod_lt p hpos
  have hlength : (window mem p n).length = n := window_length hn
  by_cases hend : p % mem.length + n < mem.length
  · have hwindow := window_of_lt hpos hend.le
    have hfirst : slice mem (p % mem.length) (p % mem.length + n) = .ok (window mem p n) := by
      rw [slice_of_le (by omega) hend.le, hwindow]
    simp only [spread, hend, if_true, copyOut, hfirst, ok_bind]
    rw [copyFromSlice_eq (Nat.zero_add _).symm (by omega), splice_zero, hlength]
  · have hwindow := window_of_wrap hpos hn (Nat.not_lt.mp hend)
    have hfirst : slice mem (p % mem.length) mem.length = .ok (mem.drop (p % mem.length)) := by
      rw [slice_of_le hlt.le le_rfl, List.take_length]
    have hsecond : slice mem 0 (p % mem.length + n - mem.length) =
        .ok (mem.take (p % mem.length + n - mem.length)) := slice_prefix (by omega)
    have hparts := hlength
    rw [hwindow, List.length_append] at hparts
    simp only [spread, hend, if_false, copyOut, hfirst, hsecond, ok_bind]
    rw [copyFromSlice_eq (Nat.zero_add _).symm (by omega), ok_bind,
      copyFromSlice_eq rfl (by rw [splice_length (by omega)]; omega), splice_splice, ← hwindow,
      hlength]

theorem copyIn_eq {mem buf : Bytes} {p n : ℕ} (hpos : 0 < mem.length) (hn : n ≤ mem.length)
    (hbuf : n ≤ buf.length) :
    ∃ mem', copyIn mem buf (spread mem.length p n) = .ok mem' ∧
      Overwrites mem mem' p (buf.take n) := by
  have hlt := Nat.mod_lt p hpos
  have hlength : (buf.take n).length = n := List.length_take_of_le hbuf
  by_cases hend : p % mem.length + n < mem.length
  · have hsource : slice buf 0 (p % mem.length + n - p % mem.length) = .ok (buf.take n) := by
      rw [Nat.add_sub_cancel_left]
      exact slice_prefix hbuf
    refine ⟨splice mem (p % mem.length) (buf.take n), ?_, ?_⟩
    · simp only [spread, hend, if_true, copyIn, hsource, ok_bind]
      exact copyFromSlice_eq (by rw [hlength]) hend.le
    · exact overwrites_splice hpos (by omega)
  · obtain ⟨k, hk⟩ : ∃ k, k = mem.length - p % mem.length := ⟨_, rfl⟩
    obtain ⟨m, hm⟩ : ∃ m, m = p % mem.length + n - mem.length := ⟨_, rfl⟩
    have hfirst : slice buf 0 k = .ok (buf.take k) := slice_prefix (by omega)
    have hfirstLength : (buf.take k).length = k := List.length_take_of_le (by omega)
    have hsecond : slice buf k (k + m) = .ok ((buf.take (k + m)).drop k) :=
      slice_of_le (by omega) (by omega)
    have hsecondLength : ((buf.take (k + m)).drop k).length = m := by
      rw [List.length_drop, List.length_take_of_le (by omega)]
      omega
    have hsource : buf.take k ++ (buf.take (k + m)).drop k = buf.take n := by
      have htake : buf.take k = (buf.take (k + m)).take k := by
        rw [List.take_take, Nat.min_eq_left (by omega)]
      have hsum : k + m = n := by omega
      rw [htake, List.take_append_drop, hsum]
    refine ⟨splice (splice mem (p % mem.length) (buf.take k)) 0 ((buf.take (k + m)).drop k), ?_, ?_⟩
    · simp only [spread, hend, if_false, copyIn, ← hk, ← hm, hfirst, ok_bind, hfirstLength, hsecond]
      rw [copyFromSlice_eq (by omega) le_rfl, ok_bind,
        copyFromSlice_eq (by omega) (by rw [splice_length (by omega)]; omega)]
    · rw [← hsource]
      exact overwrites_splice_splice hpos (by omega) (by omega)

theorem Holds.drop (h : Holds r c q) {k : ℕ} (hk : k ≤ q.length) :
    Holds { r with readPos := r.readPos + k } c (q.drop k) := by
  have hlength := h.length_eq
  have hfits := h.fits
  have hstart := h.start_le
  have hcapacity := h.capacity
  have hsplit : r.writePos - r.readPos = k + (r.writePos - (r.readPos + k)) := by omega
  have hdrop : q.drop k = window r.memoryBlock (r.readPos + k) (r.writePos - (r.readPos + k)) := by
    rw [h.contents, hsplit]
    exact window_drop (by omega)
  exact ⟨hcapacity, h.pos, by dsimp only; omega, by dsimp only; omega, h.bounded, hdrop⟩

theorem Holds.append (h : Holds r c q) {b mem : Bytes} (hroom : r.readPos + c < 2 ^ 64)
    (hb : q.length + b.length ≤ c) (hover : Overwrites r.memoryBlock mem r.writePos b) :
    Holds ⟨mem, r.readPos, r.writePos + b.length⟩ c (q ++ b) := by
  have hlength := h.length_eq
  have hstart := h.start_le
  have hcapacity := h.capacity
  have hmem : mem.length = r.memoryBlock.length := hover.length_eq (by omega)
  have hsplit : r.writePos = r.readPos + (r.writePos - r.readPos) := by omega
  have hsize : r.writePos + b.length - r.readPos = r.writePos - r.readPos + b.length := by omega
  rw [hsplit] at hover
  have hwindow := hover.window (by omega)
  refine ⟨hmem.trans hcapacity, h.pos, by dsimp only; omega, by dsimp only; omega,
    by dsimp only; omega, ?_⟩
  dsimp only
  rw [hsize, hwindow, ← h.contents]

theorem read_moves (h : Holds r c q) (buf : Bytes) (build : Build := .debug) :
    r.read buf build = .ok (.ok (fetch q buf).1, (fetch q buf).2.1,
      { r with readPos := r.readPos + (fetch q buf).1 }) := by
  obtain ⟨n, hn⟩ : ∃ n, n = min q.length buf.length := ⟨_, rfl⟩
  have hlength := h.length_eq
  have hfits := h.fits
  have hstart := h.start_le
  have hbounded := h.bounded
  have hcapacity := h.capacity
  have hpos := h.pos
  simp only [fetch, ← hn]
  by_cases hzero : n = 0
  · simp only [read, readable_eq h, ok_bind, ← hn, hzero, if_true]
    simp
  · have hranges : r.readableRanges n build = .ok (spread c r.readPos n) :=
      ranges_eq h (by omega) (by omega) (by omega) hbounded
    have hcopy : copyOut r.memoryBlock buf (spread c r.readPos n) =
        .ok (window r.memoryBlock r.readPos n ++ buf.drop n) := by
      rw [← hcapacity]
      exact copyOut_eq (by omega) (by omega) (by omega)
    have hadd : r.readPos + n < 2 ^ 64 := by omega
    have hsplit : r.writePos - r.readPos = n + (r.writePos - (r.readPos + n)) := by omega
    have htake : q.take n = window r.memoryBlock r.readPos n := by
      rw [h.contents, hsplit]
      exact window_take (by omega)
    simp only [read, readable_eq h, ok_bind, ← hn, hzero, if_false, hranges, hcopy,
      build.add_of_lt hadd, htake, pure_eq_ok]

theorem write_moves (h : Holds r c q) (hroom : r.readPos + c < 2 ^ 64) (buf : Bytes)
    (build : Build := .debug) :
    ∃ mem, r.write buf build = .ok (.ok (offer c q buf).1,
        ⟨mem, r.readPos, r.writePos + (offer c q buf).1⟩) ∧
      Overwrites r.memoryBlock mem r.writePos (buf.take (offer c q buf).1) := by
  obtain ⟨n, hn⟩ : ∃ n, n = min (c - q.length) buf.length := ⟨_, rfl⟩
  have hlength := h.length_eq
  have hfits := h.fits
  have hstart := h.start_le
  have hcapacity := h.capacity
  have hpos := h.pos
  simp only [offer, ← hn]
  by_cases hzero : n = 0
  · refine ⟨r.memoryBlock, ?_, ?_⟩
    · simp only [write, writable_eq h hroom, ok_bind, ← hn, hzero, if_true, pure_eq_ok,
        Nat.add_zero]
    · rw [hzero, List.take_zero]
      exact overwrites_nil
  · have hbuf : n ≤ buf.length := by omega
    have hranges : r.writableRanges n build = .ok (spread c r.writePos n) := by
      rw [writableRanges, hcapacity, build.add_of_lt hroom]
      exact ranges_eq h (by omega) (by omega) (by omega) hroom
    obtain ⟨mem, hcopy, hover⟩ : ∃ mem, copyIn r.memoryBlock buf (spread c r.writePos n) = .ok mem ∧
        Overwrites r.memoryBlock mem r.writePos (buf.take n) := by
      rw [← hcapacity]
      exact copyIn_eq (by omega) (by omega) hbuf
    have hadd : r.writePos + n < 2 ^ 64 := by omega
    refine ⟨mem, ?_, hover⟩
    simp only [write, writable_eq h hroom, ok_bind, ← hn, hzero, if_false, hranges, hcopy,
      build.add_of_lt hadd, pure_eq_ok]

theorem read_eq (h : Holds r c q) (buf : Bytes) (build : Build := .debug) :
    ∃ r', r.read buf build = .ok (.ok (fetch q buf).1, (fetch q buf).2.1, r') ∧
      Holds r' c (fetch q buf).2.2 ∧ r'.writePos = r.writePos :=
  ⟨_, read_moves h buf build, h.drop (Nat.min_le_left _ _), rfl⟩

theorem write_eq (h : Holds r c q) (hroom : r.readPos + c < 2 ^ 64) (buf : Bytes)
    (build : Build := .debug) :
    ∃ r', r.write buf build = .ok (.ok (offer c q buf).1, r') ∧ Holds r' c (offer c q buf).2 ∧
      r'.readPos = r.readPos ∧ r'.writePos = r.writePos + (offer c q buf).1 := by
  obtain ⟨mem, hwrite, hover⟩ := write_moves h hroom buf build
  have hlength : (buf.take (offer c q buf).1).length = (offer c q buf).1 :=
    List.length_take_of_le (Nat.min_le_right _ _)
  have hle : q.length + (offer c q buf).1 ≤ c := by
    have hfits := h.fits
    have hqueue := h.length_eq
    simp only [offer]
    omega
  have hheld := h.append hroom (by omega) hover
  rw [hlength] at hheld
  exact ⟨_, hwrite, hheld, rfl, rfl⟩

theorem write_panics (h : Holds r c q) (hroom : ¬ r.readPos + c < 2 ^ 64) (buf : Bytes) :
    r.write buf = .error .integerOverflow := by
  simp only [write, writable, Build.add, h.capacity, checkedAdd, hroom, if_false, error_bind]

theorem withCapacity_eq (hc : 1 ≤ c) :
    ∃ r, withCapacity c = .ok r ∧ Holds r c [] ∧ r.writePos = 0 := by
  refine ⟨⟨List.replicate c 0, 0, 0⟩, ?_, ?_, rfl⟩
  · rw [withCapacity, assert_of (show c > 0 from hc), ok_bind, pure_eq_ok]
  · exact ⟨List.length_replicate, hc, le_rfl, Nat.zero_le _, Nat.two_pow_pos 64, rfl⟩

theorem holds_of_withCapacity (hnew : withCapacity c = .ok r) : Holds r c [] := by
  obtain ⟨_, hassert, hr⟩ := bind_ok hnew
  have hpos : c > 0 := by
    by_contra hzero
    rw [assert, if_neg hzero] at hassert
    cases hassert
  obtain ⟨r', hring, hheld, -⟩ := withCapacity_eq hpos
  cases hring.symm.trans hnew
  exact hheld

end Specs

section Sequences

inductive Io
  | read (buf : Bytes)
  | write (buf : Bytes)

structure Outcome where
  result : Except (IoError Empty) ℕ
  buf : Bytes

def perform (r : RingBuf) : Io → Rust (Outcome × RingBuf)
  | .read buf => do
    let (result, buf, r) ← r.read buf
    return (⟨result, buf⟩, r)
  | .write buf => do
    let (result, r) ← r.write buf
    return (⟨result, buf⟩, r)

def performAll : RingBuf → List Io → Rust (List Outcome × RingBuf)
  | r, [] => return ([], r)
  | r, io :: ios => do
    let (outcome, r) ← r.perform io
    let (outcomes, r) ← performAll r ios
    return (outcome :: outcomes, r)

/-- The same call on a byte queue of capacity `c`. -/
def queued (c : ℕ) (q : Bytes) : Io → Outcome × Bytes
  | .read buf => (⟨.ok (fetch q buf).1, (fetch q buf).2.1⟩, (fetch q buf).2.2)
  | .write buf => (⟨.ok (offer c q buf).1, buf⟩, (offer c q buf).2)

def queuedAll (c : ℕ) : Bytes → List Io → List Outcome × Bytes
  | q, [] => ([], q)
  | q, io :: ios =>
    ((queued c q io).1 :: (queuedAll c (queued c q io).2 ios).1,
      (queuedAll c (queued c q io).2 ios).2)

def written (c : ℕ) : Bytes → List Io → ℕ
  | _, [] => 0
  | q, .read buf :: ios => written c (queued c q (.read buf)).2 ios
  | q, .write buf :: ios => (offer c q buf).1 + written c (queued c q (.write buf)).2 ios

variable {r : RingBuf} {c : ℕ} {q : Bytes}

theorem performAll_eq (h : Holds r c q) (ios : List Io)
    (hbound : r.writePos + written c q ios + c < 2 ^ 64) :
    ∃ r', r.performAll ios = .ok ((queuedAll c q ios).1, r') ∧ Holds r' c (queuedAll c q ios).2 ∧
      r'.writePos + c < 2 ^ 64 := by
  induction ios generalizing r q with
  | nil => exact ⟨r, rfl, h, by simpa [written] using hbound⟩
  | cons io ios ih =>
    cases io with
    | read buf =>
      obtain ⟨r₁, hread, hheld, hpos⟩ := read_eq h buf
      have hperform : r.perform (.read buf) = .ok ((queued c q (.read buf)).1, r₁) := by
        simp only [perform, hread, ok_bind, pure_eq_ok, queued]
      obtain ⟨r₂, hall, hheld₂, hpos₂⟩ := ih hheld (by rw [hpos]; exact hbound)
      refine ⟨r₂, ?_, hheld₂, hpos₂⟩
      simp only [performAll, hperform, ok_bind, hall, pure_eq_ok, queuedAll, queued]
    | write buf =>
      have hstart := h.start_le
      simp only [written] at hbound
      obtain ⟨r₁, hwrite, hheld, -, hpos⟩ := write_eq h (by omega) buf
      have hperform : r.perform (.write buf) = .ok ((queued c q (.write buf)).1, r₁) := by
        simp only [perform, hwrite, ok_bind, pure_eq_ok, queued]
      obtain ⟨r₂, hall, hheld₂, hpos₂⟩ := ih hheld (by
        rw [hpos]
        simp only [queued] at hbound
        omega)
      refine ⟨r₂, ?_, hheld₂, hpos₂⟩
      simp only [performAll, hperform, ok_bind, hall, pure_eq_ok, queuedAll, queued]

/-- A ring of capacity `c` is a byte queue of capacity `c`, as long as the
cursors stay below `2 ^ 64`. -/
theorem ring_is_queue (c : ℕ) (ios : List Io) (hc : 1 ≤ c) (hbound : written c [] ios < 2 ^ 64 - c) :
    ∃ r, (withCapacity c >>= fun r ↦ r.performAll ios) = .ok ((queuedAll c [] ios).1, r) ∧
      r.readable = .ok (queuedAll c [] ios).2.length ∧
      r.writable = .ok (c - (queuedAll c [] ios).2.length) := by
  obtain ⟨r, hnew, hheld, hpos⟩ := withCapacity_eq hc
  obtain ⟨r', hall, hheld', hpos'⟩ := performAll_eq hheld ios (by rw [hpos]; omega)
  have hstart := hheld'.start_le
  refine ⟨r', ?_, readable_eq hheld', writable_eq hheld' (by omega)⟩
  rw [hnew, ok_bind, hall]

theorem ring_is_queue_example :
    ∃ r outcomes, (withCapacity 3 >>= fun r ↦ r.performAll
        [.write [1, 2], .read [0], .write [3, 4, 5], .read [0, 0, 0, 9]]) = .ok (outcomes, r) ∧
      outcomes.map Outcome.buf = [[1, 2], [1], [3, 4, 5], [2, 3, 4, 9]] ∧ r.readable = .ok 0 := by
  obtain ⟨r, hrun, hreadable, -⟩ := ring_is_queue 3
    [.write [1, 2], .read [0], .write [3, 4, 5], .read [0, 0, 0, 9]] (by decide) (by decide)
  exact ⟨r, _, hrun, rfl, hreadable⟩

end Sequences

end RingBuf

end ZeroRtt.Ringbuff
