import ZeroRtt.Ringbuff.Delivery

namespace ZeroRtt.Ringbuff.ZeroLength

open ZeroRtt.Lib.Panics ZeroRtt.Lib.Rings ZeroRtt.Lib.Runs ZeroRtt.Ringbuff.Pipe
  ZeroRtt.Ringbuff.Delivery
open ZeroRtt.Api.Types (Poll)
open ZeroRtt.Ringbuff.RingBuf (Holds)

/-- What `Sound` says of the bytes. It says no more once empty buffers are used: a
reader may then wait beside bytes, and a writer beside room. -/
structure Conserved (c : ℕ) (p : RawRingBufPipe) (q : Bytes) : Prop where
  holds : Holds p.ringBuf c q
  conserved : acceptedBytes p.history = deliveredBytes p.history ++ q

section Steps

variable {c : ℕ} {p p' : RawRingBufPipe} {q q' buf : Bytes} {waker : Waker}

theorem Conserved.extend (h : Conserved c p q) {o : Option Waker} {l : List Happening}
    (hheld : Holds p'.ringBuf c q') (hhistory : p'.history = p.history ++ (woken o ++ l))
    (hconserved : q ++ acceptedBytes l = deliveredBytes l ++ q') : Conserved c p' q' := by
  refine ⟨hheld, ?_⟩
  rw [hhistory, acceptedBytes_append, acceptedBytes_append, acceptedBytes_woken,
    deliveredBytes_append, deliveredBytes_append, deliveredBytes_woken, h.conserved]
  simp [hconserved]

theorem fetch_splits (q buf : Bytes) :
    q = (fetch q buf).2.1.take (fetch q buf).1 ++ (fetch q buf).2.2 := by
  have hlength : (q.take (fetch q buf).1).length = (fetch q buf).1 :=
    List.length_take_of_le (Nat.min_le_left _ _)
  have htake : (fetch q buf).2.1.take (fetch q buf).1 = q.take (fetch q buf).1 :=
    List.take_left' hlength
  rw [htake]
  exact (List.take_append_drop _ q).symm

theorem deliveredBytes_read (buf : Bytes) (n : ℕ) :
    deliveredBytes (bytesRead buf (.ok n)) = buf.take n := List.append_nil _

theorem deliveredBytes_polled (buf : Bytes) (n : ℕ) :
    deliveredBytes (bytesPolled waker buf (.ready (.ok n))) = buf.take n := by
  cases n with
  | zero => rfl
  | succ n => exact List.append_nil _

theorem acceptedBytes_polled (buf : Bytes) (result : Poll (Except (IoError Empty) ℕ)) :
    acceptedBytes (bytesPolled waker buf result) = [] := by
  unfold bytesPolled
  split <;> rfl

theorem step_read (h : Conserved c p q) (hstep : step p (.read buf) = .ok p') :
    ∃ q', Conserved c p' q' := by
  obtain ⟨r, hread, hheld, -⟩ := RingBuf.read_eq h.holds buf
  have hsplit := fetch_splits q buf
  obtain ⟨n, hn⟩ : ∃ n, n = (fetch q buf).1 := ⟨_, rfl⟩
  rw [← hn] at hread hsplit
  simp only [step, RawRingBufPipe.read, hread, ok_bind, wakeWriter_eq] at hstep
  refine ⟨(fetch q buf).2.2, ?_⟩
  by_cases hzero : n = 0
  · rw [hzero, List.take_zero, List.nil_append] at hsplit
    cases hclosed : p.closed with
    | true =>
      simp only [hzero, hclosed, if_true, pure_eq_ok, ok_bind, RawRingBufPipe.record, bytesRead,
        List.append_assoc, Except.ok.injEq] at hstep
      subst hstep
      exact h.extend hheld rfl (by simp [acceptedBytes, deliveredBytes, ← hsplit])
    | false =>
      simp only [hzero, hclosed, if_true, Bool.false_eq_true, if_false, pure_eq_ok, ok_bind,
        RawRingBufPipe.record, bytesRead, List.append_assoc, Except.ok.injEq] at hstep
      subst hstep
      exact h.extend hheld rfl (by simp [acceptedBytes, deliveredBytes, ← hsplit])
  · simp only [hzero, if_false, pure_eq_ok, ok_bind, RawRingBufPipe.record, List.append_assoc,
      Except.ok.injEq] at hstep
    subst hstep
    apply h.extend hheld rfl
    rw [deliveredBytes_read, ← hsplit]
    exact List.append_nil q

theorem step_pollRead (h : Conserved c p q) (hstep : step p (.pollRead waker buf) = .ok p') :
    ∃ q', Conserved c p' q' := by
  obtain ⟨r, hread, hheld, -⟩ := RingBuf.read_eq h.holds buf
  have hsplit := fetch_splits q buf
  obtain ⟨n, hn⟩ : ∃ n, n = (fetch q buf).1 := ⟨_, rfl⟩
  rw [← hn] at hread hsplit
  simp only [step, RawRingBufPipe.pollRead, hread, ok_bind, wakeWriter_eq] at hstep
  refine ⟨(fetch q buf).2.2, ?_⟩
  by_cases hzero : n = 0
  · rw [hzero, List.take_zero, List.nil_append] at hsplit
    cases hclosed : p.closed with
    | true =>
      simp only [hzero, hclosed, if_true, pure_eq_ok, ok_bind, RawRingBufPipe.record,
        List.append_assoc, Except.ok.injEq] at hstep
      subst hstep
      exact h.extend hheld rfl (by simp [bytesPolled, acceptedBytes, deliveredBytes, ← hsplit])
    | false =>
      simp only [hzero, hclosed, if_true, Bool.false_eq_true, if_false, pure_eq_ok, ok_bind,
        RawRingBufPipe.record, List.append_assoc, Except.ok.injEq] at hstep
      subst hstep
      exact h.extend hheld rfl (by simp [bytesPolled, acceptedBytes, deliveredBytes, ← hsplit])
  · simp only [hzero, if_false, pure_eq_ok, ok_bind, RawRingBufPipe.record, List.append_assoc,
      Except.ok.injEq] at hstep
    subst hstep
    apply h.extend hheld rfl
    rw [deliveredBytes_polled, acceptedBytes_polled, ← hsplit, List.append_nil]

theorem step_write (h : Conserved c p q) (hstep : step p (.write buf) = .ok p') :
    ∃ q', Conserved c p' q' := by
  cases hclosed : p.closed with
  | true =>
    simp only [step, (writes_of_closed hclosed).1, ok_bind, pure_eq_ok, Except.ok.injEq] at hstep
    subst hstep
    exact ⟨q, h.extend (o := none) h.holds rfl (List.append_nil q)⟩
  | false =>
    by_cases hroom : p.ringBuf.readPos + c < 2 ^ 64
    · obtain ⟨r, hwrite, hheld, -⟩ := RingBuf.write_eq h.holds hroom buf
      have hqueue : (offer c q buf).2 = q ++ buf.take (offer c q buf).1 := rfl
      obtain ⟨n, hn⟩ : ∃ n, n = (offer c q buf).1 := ⟨_, rfl⟩
      rw [← hn] at hwrite hqueue
      simp only [step, RawRingBufPipe.write, hclosed, Bool.false_eq_true, if_false, hwrite, ok_bind,
        wakeReader_eq] at hstep
      refine ⟨(offer c q buf).2, ?_⟩
      by_cases hzero : n = 0
      · simp only [hzero, if_true, pure_eq_ok, ok_bind, RawRingBufPipe.record, bytesWritten,
          List.append_assoc, Except.ok.injEq] at hstep
        subst hstep
        apply h.extend hheld rfl
        rw [hqueue, hzero]
        rfl
      · simp only [hzero, if_false, pure_eq_ok, ok_bind, RawRingBufPipe.record, bytesWritten,
          List.append_assoc, Except.ok.injEq] at hstep
        subst hstep
        apply h.extend hheld rfl
        simp [acceptedBytes, deliveredBytes, hqueue]
    · simp only [step, RawRingBufPipe.write, hclosed, Bool.false_eq_true, if_false,
        RingBuf.write_panics h.holds hroom, error_bind, reduceCtorEq] at hstep

theorem step_pollWrite (h : Conserved c p q) (hstep : step p (.pollWrite waker buf) = .ok p') :
    ∃ q', Conserved c p' q' := by
  cases hclosed : p.closed with
  | true =>
    simp only [step, (writes_of_closed hclosed).2, ok_bind, pure_eq_ok, Except.ok.injEq] at hstep
    subst hstep
    exact ⟨q, h.extend (o := none) h.holds rfl (List.append_nil q)⟩
  | false =>
    by_cases hroom : p.ringBuf.readPos + c < 2 ^ 64
    · obtain ⟨r, hwrite, hheld, -⟩ := RingBuf.write_eq h.holds hroom buf
      have hqueue : (offer c q buf).2 = q ++ buf.take (offer c q buf).1 := rfl
      obtain ⟨n, hn⟩ : ∃ n, n = (offer c q buf).1 := ⟨_, rfl⟩
      rw [← hn] at hwrite hqueue
      simp only [step, RawRingBufPipe.pollWrite, hclosed, Bool.false_eq_true, if_false, hwrite,
        ok_bind, wakeReader_eq] at hstep
      refine ⟨(offer c q buf).2, ?_⟩
      by_cases hzero : n = 0
      · simp only [hzero, if_true, pure_eq_ok, ok_bind, RawRingBufPipe.record, writePolled,
          List.append_assoc, Except.ok.injEq] at hstep
        subst hstep
        apply h.extend hheld rfl
        rw [hqueue, hzero]
        rfl
      · simp only [hzero, if_false, pure_eq_ok, ok_bind, RawRingBufPipe.record, writePolled,
          bytesWritten, List.append_assoc, Except.ok.injEq] at hstep
        subst hstep
        apply h.extend hheld rfl
        simp [acceptedBytes, deliveredBytes, hqueue]
    · simp only [step, RawRingBufPipe.pollWrite, hclosed, Bool.false_eq_true, if_false,
        RingBuf.write_panics h.holds hroom, error_bind, reduceCtorEq] at hstep

theorem Conserved.step (h : Conserved c p q) {a : Action} (hstep : step p a = .ok p') :
    ∃ q', Conserved c p' q' := by
  cases a with
  | read buf => exact step_read h hstep
  | write buf => exact step_write h hstep
  | pollRead waker buf => exact step_pollRead h hstep
  | pollWrite waker buf => exact step_pollWrite h hstep
  | close =>
    simp only [Pipe.step, close_eq, RawRingBufPipe.record, List.append_assoc, pure_eq_ok,
      Except.ok.injEq] at hstep
    subst hstep
    refine ⟨q, h.extend (o := p.writer) (l := woken p.reader ++ [.closed]) h.holds rfl ?_⟩
    simp [acceptedBytes_append, deliveredBytes_append, acceptedBytes_woken, deliveredBytes_woken,
      acceptedBytes, deliveredBytes]

theorem Conserved.run (h : Conserved c p q) (hrun : Run Pipe.step Anything p p') :
    ∃ q', Conserved c p' q' := by
  induction hrun with
  | refl => exact ⟨q, h⟩
  | tail _ _ hstep ih =>
    obtain ⟨_, h'⟩ := ih
    exact h'.step hstep

end Steps

section Empty

variable {c : ℕ} {p p' : RawRingBufPipe} {q : Bytes} {waker : Waker}

theorem ring_read_nil (h : Holds p.ringBuf c q) :
    p.ringBuf.read [] = .ok (.ok 0, [], p.ringBuf) := by
  simp [RingBuf.read_moves h, fetch]

theorem ring_write_nil (h : Holds p.ringBuf c q) (hroom : p.ringBuf.readPos + c < 2 ^ 64) :
    p.ringBuf.write [] = .ok (.ok 0, p.ringBuf) := by
  simp only [RingBuf.write, RingBuf.writable_eq h hroom, ok_bind, List.length_nil, Nat.min_zero,
    if_true, pure_eq_ok]

theorem read_nil (h : Holds p.ringBuf c q) :
    p.read [] = .ok (if p.closed then .error brokenPipe else .ok 0, [],
      { p with writer := none, history := p.history ++ woken p.writer }) := by
  simp only [RawRingBufPipe.read, ring_read_nil h, ok_bind, wakeWriter_eq, if_true, pure_eq_ok]
  split <;> rfl

theorem pollRead_nil (h : Holds p.ringBuf c q) :
    p.pollRead waker [] = .ok (if p.closed then .ready (.ok 0) else .pending, [],
      { p with
        writer := none, history := p.history ++ woken p.writer
        reader := if p.closed then p.reader else some waker }) := by
  simp only [RawRingBufPipe.pollRead, ring_read_nil h, ok_bind, wakeWriter_eq, if_true, pure_eq_ok]
  split <;> rfl

theorem write_nil (h : Holds p.ringBuf c q) (hclosed : p.closed = false)
    (hroom : p.ringBuf.readPos + c < 2 ^ 64) :
    p.write [] = .ok (.ok 0, { p with reader := none, history := p.history ++ woken p.reader }) := by
  simp only [RawRingBufPipe.write, ring_write_nil h hroom, hclosed, Bool.false_eq_true, if_false,
    ok_bind, wakeReader_eq, if_true, pure_eq_ok]

theorem pollWrite_nil (h : Holds p.ringBuf c q) (hclosed : p.closed = false)
    (hroom : p.ringBuf.readPos + c < 2 ^ 64) :
    p.pollWrite waker [] = .ok (.pending,
      { p with reader := none, history := p.history ++ woken p.reader, writer := some waker }) := by
  simp only [RawRingBufPipe.pollWrite, ring_write_nil h hroom, hclosed, Bool.false_eq_true, if_false,
    ok_bind, wakeReader_eq, if_true, pure_eq_ok]

end Empty

section Harmless

def Still (p p' : RawRingBufPipe) : Prop := p'.ringBuf = p.ringBuf ∧ p'.closed = p.closed

/-- A read into the empty buffer reports the end only if nothing is left to deliver. -/
def ReadHarmless (p : RawRingBufPipe) : Prop :=
  ∃ result buf p', p.read [] = .ok (result, buf, p') ∧ Still p p' ∧
    (∀ n, result = .ok n → n = 0) ∧
    (result = .error brokenPipe → deliveredBytes p.history = acceptedBytes p.history)

/-- A poll with the empty buffer waits only for the bytes of an open pipe. -/
def PollReadHarmless (p : RawRingBufPipe) (waker : Waker) : Prop :=
  ∃ result buf p', p.pollRead waker [] = .ok (result, buf, p') ∧ Still p p' ∧
    (∀ n, result = .ready (.ok n) → n = 0) ∧
    (result = .pending → p.ringBuf.readable = .ok 0 ∧ p.closed = false)

def WriteHarmless (p : RawRingBufPipe) : Prop :=
  ∃ result p', p.write [] = .ok (result, p') ∧ Still p p' ∧
    (∀ n, result = .ok n → n = 0) ∧ (result = .error brokenPipe → p.closed = true)

/-- A poll to write the empty buffer waits only for room in an open pipe. -/
def PollWriteHarmless (p : RawRingBufPipe) (waker : Waker) : Prop :=
  ∃ result p', p.pollWrite waker [] = .ok (result, p') ∧ Still p p' ∧
    (∀ n, result = .ready (.ok n) → n = 0) ∧
    (result = .pending → p.ringBuf.writable = .ok 0 ∧ p.closed = false)

variable {c : ℕ} {p : RawRingBufPipe} {q : Bytes}

theorem Conserved.exhausted_iff (h : Conserved c p q) :
    deliveredBytes p.history = acceptedBytes p.history ↔ p.ringBuf.readable = .ok 0 := by
  rw [h.conserved, List.self_eq_append_right, RingBuf.readable_eq h.holds, Except.ok.injEq,
    List.length_eq_zero_iff]

theorem readHarmless_iff (h : Conserved c p q) :
    ReadHarmless p ↔ p.closed = false ∨ p.ringBuf.readable = .ok 0 := by
  rw [ReadHarmless, read_nil h.holds, h.exhausted_iff]
  cases hclosed : p.closed with
  | true => simp [Still, hclosed]
  | false => simp [Still, hclosed]

theorem pollReadHarmless_iff (h : Conserved c p q) (waker : Waker) :
    PollReadHarmless p waker ↔ p.closed = true ∨ p.ringBuf.readable = .ok 0 := by
  rw [PollReadHarmless, pollRead_nil h.holds]
  cases hclosed : p.closed with
  | true => simp [Still, hclosed]
  | false => simp [Still, hclosed]

theorem writable_eq_iff (h : Conserved c p q) :
    (∃ n, p.ringBuf.writable = .ok n) ↔ p.ringBuf.readPos + c < 2 ^ 64 := by
  constructor
  · rintro ⟨n, hn⟩
    by_contra hroom
    simp only [RingBuf.writable, Build.add, checkedAdd, h.holds.capacity, hroom, if_false, error_bind,
      reduceCtorEq] at hn
  · exact fun hroom ↦ ⟨_, RingBuf.writable_eq h.holds hroom⟩

theorem writeHarmless_iff (h : Conserved c p q) :
    WriteHarmless p ↔ p.closed = true ∨ ∃ n, p.ringBuf.writable = .ok n := by
  rw [writable_eq_iff h, WriteHarmless]
  cases hclosed : p.closed with
  | true =>
    have hwrite : p.write [] = .ok (.error brokenPipe, p) := (writes_of_closed hclosed).1
    simp [hwrite, Still]
  | false =>
    by_cases hroom : p.ringBuf.readPos + c < 2 ^ 64
    · refine iff_of_true ?_ (.inr hroom)
      refine ⟨_, _, write_nil h.holds hclosed hroom, ⟨rfl, rfl⟩, ?_, ?_⟩
      · intro n hn
        cases hn
        rfl
      · intro herr
        cases herr
    · apply iff_of_false
      · intro hharmless
        obtain ⟨result, p', hwrite, -⟩ := hharmless
        simp only [RawRingBufPipe.write, hclosed, Bool.false_eq_true, if_false,
          RingBuf.write_panics h.holds hroom, error_bind, reduceCtorEq] at hwrite
      · intro hcond
        cases hcond with
        | inl hopen => cases hopen
        | inr hlt => exact hroom hlt

theorem pollWriteHarmless_iff (h : Conserved c p q) (waker : Waker) :
    PollWriteHarmless p waker ↔ p.closed = true ∨ p.ringBuf.writable = .ok 0 := by
  rw [PollWriteHarmless]
  cases hclosed : p.closed with
  | true =>
    have hwrite : p.pollWrite waker [] = .ok (.ready (.ok 0), p) :=
      (writes_of_closed hclosed).2 waker
    simp [hwrite, Still]
  | false =>
    by_cases hroom : p.ringBuf.readPos + c < 2 ^ 64
    · simp [pollWrite_nil h.holds hclosed hroom, Still, hclosed]
    · have hwritable : p.ringBuf.writable ≠ .ok 0 := fun hzero ↦
        hroom ((writable_eq_iff h).mp ⟨0, hzero⟩)
      simp [RawRingBufPipe.pollWrite, RingBuf.write_panics h.holds hroom, hclosed, hwritable]

end Harmless

/-- In which states of a pipe an empty buffer does no harm. -/
theorem zero_length_harmless_iff (c : ℕ) (p₀ p : RawRingBufPipe) (hnew : pipe c = .ok p₀)
    (hrun : Run Pipe.step Anything p₀ p) :
    (ReadHarmless p ↔ p.closed = false ∨ p.ringBuf.readable = .ok 0) ∧
      (WriteHarmless p ↔ p.closed = true ∨ ∃ n, p.ringBuf.writable = .ok n) ∧
      ∀ waker, (PollReadHarmless p waker ↔ p.closed = true ∨ p.ringBuf.readable = .ok 0) ∧
        (PollWriteHarmless p waker ↔ p.closed = true ∨ p.ringBuf.writable = .ok 0) := by
  have hstart : Conserved c p₀ [] := by
    obtain ⟨hsound, -⟩ := sound_of_pipe hnew
    exact ⟨hsound.holds, hsound.conserved⟩
  obtain ⟨q, h⟩ := hstart.run hrun
  refine ⟨readHarmless_iff h, writeHarmless_iff h, fun waker ↦ ?_⟩
  exact ⟨pollReadHarmless_iff h waker, pollWriteHarmless_iff h waker⟩

theorem zero_length_harmless_iff_example :
    ∃ p₀ p, pipe 2 = .ok p₀ ∧ Run Pipe.step Anything p₀ p ∧ p.ringBuf.readable = .ok 1 ∧
      ReadHarmless p ∧ WriteHarmless p ∧ ¬ PollReadHarmless p ⟨0⟩ ∧ ¬ PollWriteHarmless p ⟨0⟩ := by
  obtain ⟨p, hp⟩ : ∃ p : RawRingBufPipe,
      p = ⟨⟨[7, 0], 0, 1⟩, none, none, false, [.accepted [7]]⟩ := ⟨_, rfl⟩
  have hrun : Run Pipe.step Anything ⟨⟨[0, 0], 0, 0⟩, none, none, false, []⟩ p := by
    rw [hp]
    exact .one (i := .write [7]) trivial rfl
  obtain ⟨hread, hwrite, hpolls⟩ := zero_length_harmless_iff 2 _ p rfl hrun
  obtain ⟨hpollRead, hpollWrite⟩ := hpolls ⟨0⟩
  refine ⟨_, p, rfl, hrun, by rw [hp]; rfl, hread.mpr (.inl (by rw [hp])),
    hwrite.mpr (.inr ⟨1, by rw [hp]; rfl⟩), ?_, ?_⟩
  · rw [hpollRead, hp]
    decide
  · rw [hpollWrite, hp]
    decide

/-- A poll to write nothing to a new pipe waits, a poll to read nothing waits beside a
byte, and a read of nothing from a closed pipe reports its end beside a byte. -/
theorem zero_length_harms :
    (∃ p₀ p, pipe 1 = .ok p₀ ∧ p₀.pollWrite ⟨0⟩ [] = .ok (.pending, p) ∧
      p₀.ringBuf.writable = .ok 1 ∧ p₀.closed = false) ∧
    (∃ p₀ p rest, pipe 1 = .ok p₀ ∧ Run Pipe.step Anything p₀ p ∧
      p.pollRead ⟨0⟩ [] = .ok (.pending, rest) ∧ p.ringBuf.readable = .ok 1) ∧
    ∃ p₀ p rest, pipe 1 = .ok p₀ ∧ Run Pipe.step Anything p₀ p ∧
      p.read [] = .ok (.error brokenPipe, rest) ∧
      acceptedBytes p.history = [7] ∧ deliveredBytes p.history = [] := by
  refine ⟨⟨_, _, rfl, rfl, rfl, rfl⟩, ?_, ?_⟩
  · refine ⟨_, ⟨⟨[7], 0, 1⟩, none, none, false, [.accepted [7]]⟩, _, rfl, ?_, rfl, rfl⟩
    exact .one (i := .write [7]) trivial rfl
  refine ⟨_, ⟨⟨[7], 0, 1⟩, none, none, true, [.accepted [7], .closed]⟩, _, rfl, ?_, rfl, rfl, rfl⟩
  exact .tail (.tail (.refl _) (i := .write [7]) trivial rfl) (i := .close) trivial rfl

end ZeroRtt.Ringbuff.ZeroLength
