import ZeroRtt.Ringbuff.Pipe

namespace ZeroRtt.Ringbuff.Delivery

open ZeroRtt.Lib.Panics ZeroRtt.Lib.Rings ZeroRtt.Lib.Runs ZeroRtt.Ringbuff.Pipe
open ZeroRtt.Ringbuff.RingBuf (Holds)

section Ring

variable {r : RingBuf} {c : ℕ} {q buf : Bytes}

theorem read_nothing (h : Holds r c []) : r.read buf = .ok (.ok 0, buf, r) := by
  have hzero : min ([] : Bytes).length buf.length = 0 := Nat.zero_min _
  simp only [RingBuf.read, RingBuf.readable_eq h, ok_bind, hzero, if_true, pure_eq_ok]

theorem read_something (h : Holds r c q) (hq : q ≠ []) (hbuf : buf ≠ []) :
    ∃ bytes rest buf' r', q = bytes ++ rest ∧ bytes ≠ [] ∧ buf'.take bytes.length = bytes ∧
      r.read buf = .ok (.ok bytes.length, buf', r') ∧ Holds r' c rest := by
  obtain ⟨r', hread, hheld, -⟩ := RingBuf.read_eq h buf
  obtain ⟨n, hn⟩ : ∃ n, n = min q.length buf.length := ⟨_, rfl⟩
  have hqpos := List.length_pos_iff.mpr hq
  have hbufpos := List.length_pos_iff.mpr hbuf
  have hlength : (q.take n).length = n := List.length_take_of_le (by omega)
  simp only [fetch, ← hn] at hread hheld
  refine ⟨q.take n, q.drop n, q.take n ++ buf.drop n, r', (List.take_append_drop n q).symm,
    ?_, ?_, ?_, hheld⟩
  · exact List.length_pos_iff.mp (by omega)
  · exact List.take_left' rfl
  · rw [hlength]
    exact hread

theorem write_nothing (h : Holds r c q) (hq : q.length = c) (hroom : r.readPos + c < 2 ^ 64) :
    r.write buf = .ok (.ok 0, r) := by
  have hzero : min (c - q.length) buf.length = 0 := by omega
  simp only [RingBuf.write, RingBuf.writable_eq h hroom, ok_bind, hzero, if_true, pure_eq_ok]

theorem write_something (h : Holds r c q) (hq : q.length ≠ c) (hbuf : buf ≠ [])
    (hroom : r.readPos + c < 2 ^ 64) :
    ∃ bytes r', bytes ≠ [] ∧ buf.take bytes.length = bytes ∧
      r.write buf = .ok (.ok bytes.length, r') ∧ Holds r' c (q ++ bytes) := by
  obtain ⟨r', hwrite, hheld, -, -⟩ := RingBuf.write_eq h hroom buf
  obtain ⟨n, hn⟩ : ∃ n, n = min (c - q.length) buf.length := ⟨_, rfl⟩
  have hle := Holds.length_le h
  have hbufpos := List.length_pos_iff.mpr hbuf
  have hlength : (buf.take n).length = n := List.length_take_of_le (by omega)
  simp only [offer, ← hn] at hwrite hheld
  refine ⟨buf.take n, r', List.length_pos_iff.mp (by omega), ?_, ?_, hheld⟩
  · rw [hlength]
  · rw [hlength]
    exact hwrite

end Ring

def acceptedBytes : List Happening → Bytes
  | [] => []
  | .accepted bytes :: hs => bytes ++ acceptedBytes hs
  | _ :: hs => acceptedBytes hs

def deliveredBytes : List Happening → Bytes
  | [] => []
  | .delivered bytes :: hs => bytes ++ deliveredBytes hs
  | _ :: hs => deliveredBytes hs

theorem acceptedBytes_append (hs hs' : List Happening) :
    acceptedBytes (hs ++ hs') = acceptedBytes hs ++ acceptedBytes hs' := by
  induction hs with
  | nil => rfl
  | cons h hs ih => cases h <;> simp only [List.cons_append, acceptedBytes, ih, List.append_assoc]

theorem deliveredBytes_append (hs hs' : List Happening) :
    deliveredBytes (hs ++ hs') = deliveredBytes hs ++ deliveredBytes hs' := by
  induction hs with
  | nil => rfl
  | cons h hs ih => cases h <;> simp only [List.cons_append, deliveredBytes, ih, List.append_assoc]

/-- What a pipe with the bytes `q` in its ring is like: the ring has what was
accepted and not delivered yet, a reader waits for a byte and a writer for room. -/
structure Sound (c : ℕ) (p : RawRingBufPipe) (q : Bytes) : Prop where
  holds : Holds p.ringBuf c q
  conserved : acceptedBytes p.history = deliveredBytes p.history ++ q
  closed_iff : .closed ∈ p.history ↔ p.closed = true
  reader : p.reader ≠ none → q = [] ∧ p.closed = false
  writer : p.writer ≠ none → q.length = c ∧ p.closed = false

section Waking

variable {p : RawRingBufPipe}

theorem wakeReader_of_none (h : p.reader = none) : p.wakeReader = p := by
  rw [RawRingBufPipe.wakeReader, h]

theorem wakeWriter_of_none (h : p.writer = none) : p.wakeWriter = p := by
  rw [RawRingBufPipe.wakeWriter, h]

def woken : Option Waker → List Happening
  | none => []
  | some waker => [.woke waker]

theorem wakeReader_eq (p : RawRingBufPipe) :
    p.wakeReader = { p with reader := none, history := p.history ++ woken p.reader } := by
  cases hreader : p.reader with
  | none =>
    rw [wakeReader_of_none hreader, woken, List.append_nil, ← hreader]
  | some waker => simp only [RawRingBufPipe.wakeReader, hreader, RawRingBufPipe.record, woken]

theorem wakeWriter_eq (p : RawRingBufPipe) :
    p.wakeWriter = { p with writer := none, history := p.history ++ woken p.writer } := by
  cases hwriter : p.writer with
  | none =>
    rw [wakeWriter_of_none hwriter, woken, List.append_nil, ← hwriter]
  | some waker => simp only [RawRingBufPipe.wakeWriter, hwriter, RawRingBufPipe.record, woken]

theorem close_eq (p : RawRingBufPipe) :
    p.close = { p with
      reader := none, writer := none, closed := true
      history := p.history ++ (woken p.writer ++ woken p.reader) } := by
  simp only [RawRingBufPipe.close, wakeWriter_eq, wakeReader_eq, List.append_assoc]

end Waking

inductive Moves (c : ℕ) (p : RawRingBufPipe) (q : Bytes) : RawRingBufPipe → Bytes → Prop
  | fetched {r : RingBuf} {bytes rest : Bytes} (polled : List Happening) :
      q = bytes ++ rest → bytes ≠ [] → Holds r c rest → polled = [] ∨ polled = [.readReady] →
      Moves c p q
        { p with
          ringBuf := r, writer := none
          history := p.history ++ (woken p.writer ++ (polled ++ [.delivered bytes])) } rest
  | drained (polled : List Happening) :
      q = [] → p.closed = true → polled = [] ∨ polled = [.readReady] →
      Moves c p q { p with history := p.history ++ (polled ++ [.ended]) } q
  | starved : q = [] → p.closed = false →
      Moves c p q { p with history := p.history ++ [.delivered []] } q
  | readParked (waker : Waker) : q = [] → p.closed = false →
      Moves c p q { p with reader := some waker, history := p.history ++ [.readPending waker] } q
  | offered {r : RingBuf} {bytes : Bytes} (polled : List Happening) :
      p.closed = false → bytes ≠ [] → Holds r c (q ++ bytes) →
      polled = [] ∨ polled = [.writeReady] →
      Moves c p q
        { p with
          ringBuf := r, reader := none
          history := p.history ++ (woken p.reader ++ (polled ++ [.accepted bytes])) } (q ++ bytes)
  | refused (polled : List Happening) :
      p.closed = true → polled = [] ∨ polled = [.writeReady, .accepted []] →
      Moves c p q { p with history := p.history ++ polled } q
  | full : q.length = c → p.closed = false →
      Moves c p q { p with history := p.history ++ [.accepted []] } q
  | writeParked (waker : Waker) : q.length = c → p.closed = false →
      Moves c p q { p with writer := some waker, history := p.history ++ [.writePending waker] } q
  | closed :
      Moves c p q
        { p with
          reader := none, writer := none, closed := true
          history := p.history ++ (woken p.writer ++ (woken p.reader ++ [.closed])) } q

section Operations

variable {c : ℕ} {p p' : RawRingBufPipe} {q buf : Bytes} {waker : Waker}

theorem Sound.writer_eq_none (h : Sound c p q) (hq : q.length ≠ c) : p.writer = none := by
  by_contra hwriter
  exact hq (h.writer hwriter).1

theorem Sound.reader_eq_none (h : Sound c p q) (hq : q ≠ []) : p.reader = none := by
  by_contra hreader
  exact hq (h.reader hreader).1

theorem Sound.wakeWriter_of_empty (h : Sound c p []) :
    { p with ringBuf := p.ringBuf }.wakeWriter = p :=
  wakeWriter_of_none (h.writer_eq_none h.holds.pos.ne)

theorem Sound.wakeReader_of_full (h : Sound c p q) (hq : q.length = c) :
    { p with ringBuf := p.ringBuf }.wakeReader = p := by
  have hpos := h.holds.pos
  exact wakeReader_of_none (h.reader_eq_none (List.length_pos_iff.mp (by omega)))

theorem read_of_empty (h : Sound c p []) (hclosed : p.closed = false) :
    p.read buf = .ok (.ok 0, buf, p) := by
  simp only [RawRingBufPipe.read, read_nothing h.holds, ok_bind, h.wakeWriter_of_empty, if_true]
  simp only [hclosed, Bool.false_eq_true, if_false, pure_eq_ok]

theorem read_of_drained (h : Sound c p []) (hclosed : p.closed = true) :
    p.read buf = .ok (.error brokenPipe, buf, p) := by
  simp only [RawRingBufPipe.read, read_nothing h.holds, ok_bind, h.wakeWriter_of_empty, if_true]
  simp only [hclosed, if_true, pure_eq_ok]

theorem pollRead_of_empty (h : Sound c p []) (hclosed : p.closed = false) :
    p.pollRead waker buf = .ok (.pending, buf, { p with reader := some waker }) := by
  simp only [RawRingBufPipe.pollRead, read_nothing h.holds, ok_bind, h.wakeWriter_of_empty, if_true]
  simp only [hclosed, Bool.false_eq_true, if_false, pure_eq_ok]

theorem pollRead_of_drained (h : Sound c p []) (hclosed : p.closed = true) :
    p.pollRead waker buf = .ok (.ready (.ok 0), buf, p) := by
  simp only [RawRingBufPipe.pollRead, read_nothing h.holds, ok_bind, h.wakeWriter_of_empty, if_true]
  simp only [hclosed, if_true, pure_eq_ok]

theorem reads_of_bytes (h : Sound c p q) (hq : q ≠ []) (hbuf : buf ≠ []) :
    ∃ bytes rest buf' r, q = bytes ++ rest ∧ bytes ≠ [] ∧ buf'.take bytes.length = bytes ∧
      Holds r c rest ∧
      p.read buf = .ok (.ok bytes.length, buf', { p with ringBuf := r }.wakeWriter) ∧
      ∀ waker, p.pollRead waker buf =
        .ok (.ready (.ok bytes.length), buf', { p with ringBuf := r }.wakeWriter) := by
  obtain ⟨bytes, rest, buf', r, hsplit, hbytes, htake, hread, hheld⟩ :=
    read_something h.holds hq hbuf
  have hlength : bytes.length ≠ 0 := (List.length_pos_iff.mpr hbytes).ne'
  refine ⟨bytes, rest, buf', r, hsplit, hbytes, htake, hheld, ?_, ?_⟩
  · simp only [RawRingBufPipe.read, hread, ok_bind, hlength, if_false, pure_eq_ok]
  · intro waker
    simp only [RawRingBufPipe.pollRead, hread, ok_bind, hlength, if_false, pure_eq_ok]

theorem writes_of_closed (hclosed : p.closed = true) :
    p.write buf = .ok (.error brokenPipe, p) ∧
      ∀ waker, p.pollWrite waker buf = .ok (.ready (.ok 0), p) := by
  simp only [RawRingBufPipe.write, RawRingBufPipe.pollWrite, hclosed, if_true, pure_eq_ok,
    implies_true, and_self]

theorem writes_of_full (h : Sound c p q) (hq : q.length = c) (hclosed : p.closed = false)
    (hroom : p.ringBuf.readPos + c < 2 ^ 64) :
    p.write buf = .ok (.ok 0, p) ∧
      ∀ waker, p.pollWrite waker buf = .ok (.pending, { p with writer := some waker }) := by
  simp only [RawRingBufPipe.write, RawRingBufPipe.pollWrite, write_nothing h.holds hq hroom, ok_bind,
    h.wakeReader_of_full hq, if_true, pure_eq_ok]
  simp only [hclosed, Bool.false_eq_true, if_false, implies_true, and_self]

theorem writes_of_room (h : Sound c p q) (hq : q.length ≠ c) (hclosed : p.closed = false)
    (hroom : p.ringBuf.readPos + c < 2 ^ 64) (hbuf : buf ≠ []) :
    ∃ bytes r, bytes ≠ [] ∧ buf.take bytes.length = bytes ∧ Holds r c (q ++ bytes) ∧
      p.write buf = .ok (.ok bytes.length, { p with ringBuf := r }.wakeReader) ∧
      ∀ waker, p.pollWrite waker buf =
        .ok (.ready (.ok bytes.length), { p with ringBuf := r }.wakeReader) := by
  obtain ⟨bytes, r, hbytes, htake, hwrite, hheld⟩ := write_something h.holds hq hbuf hroom
  have hlength : bytes.length ≠ 0 := (List.length_pos_iff.mpr hbytes).ne'
  refine ⟨bytes, r, hbytes, htake, hheld, ?_, ?_⟩
  · simp only [RawRingBufPipe.write, hclosed, Bool.false_eq_true, if_false, hwrite, ok_bind, hlength,
      pure_eq_ok]
  · intro waker
    simp only [RawRingBufPipe.pollWrite, hclosed, Bool.false_eq_true, if_false, hwrite, ok_bind,
      hlength, pure_eq_ok]

theorem writes_panic (h : Sound c p q) (hclosed : p.closed = false)
    (hroom : ¬ p.ringBuf.readPos + c < 2 ^ 64) :
    p.write buf = .error .integerOverflow ∧
      ∀ waker, p.pollWrite waker buf = .error .integerOverflow := by
  simp only [RawRingBufPipe.write, RawRingBufPipe.pollWrite, hclosed, Bool.false_eq_true, if_false,
    RingBuf.write_panics h.holds hroom, error_bind, implies_true, and_self]

end Operations

section Steps

variable {c : ℕ} {p p' : RawRingBufPipe} {q buf : Bytes} {waker : Waker}

theorem step_read (h : Sound c p q) (hbuf : buf ≠ []) (hstep : step p (.read buf) = .ok p') :
    ∃ q', Moves c p q p' q' := by
  by_cases hq : q = []
  · subst hq
    cases hclosed : p.closed with
    | false =>
      simp only [step, read_of_empty h hclosed, ok_bind, bytesRead, List.take_zero, pure_eq_ok,
        Except.ok.injEq] at hstep
      subst hstep
      exact ⟨_, .starved rfl hclosed⟩
    | true =>
      simp only [step, read_of_drained h hclosed, ok_bind, bytesRead, pure_eq_ok,
        Except.ok.injEq] at hstep
      subst hstep
      exact ⟨_, .drained [] rfl hclosed (.inl rfl)⟩
  · obtain ⟨bytes, rest, buf', r, hsplit, hbytes, htake, hheld, hread, -⟩ := reads_of_bytes h hq hbuf
    simp only [step, hread, ok_bind, bytesRead, htake, wakeWriter_eq, RawRingBufPipe.record,
      List.append_assoc, pure_eq_ok, Except.ok.injEq] at hstep
    subst hstep
    exact ⟨rest, .fetched [] hsplit hbytes hheld (.inl rfl)⟩

theorem step_pollRead (h : Sound c p q) (hbuf : buf ≠ [])
    (hstep : step p (.pollRead waker buf) = .ok p') : ∃ q', Moves c p q p' q' := by
  by_cases hq : q = []
  · subst hq
    cases hclosed : p.closed with
    | false =>
      simp only [step, pollRead_of_empty h hclosed, ok_bind, bytesPolled, pure_eq_ok,
        Except.ok.injEq] at hstep
      subst hstep
      exact ⟨_, .readParked waker rfl hclosed⟩
    | true =>
      simp only [step, pollRead_of_drained h hclosed, ok_bind, bytesPolled, pure_eq_ok,
        Except.ok.injEq] at hstep
      subst hstep
      exact ⟨_, .drained [.readReady] rfl hclosed (.inr rfl)⟩
  · obtain ⟨bytes, rest, buf', r, hsplit, hbytes, htake, hheld, -, hread⟩ := reads_of_bytes h hq hbuf
    have hpolled : bytesPolled waker buf' (.ready (.ok bytes.length)) =
        [.readReady, .delivered bytes] := by
      obtain ⟨n, hn⟩ := Nat.exists_eq_succ_of_ne_zero (List.length_pos_iff.mpr hbytes).ne'
      rw [hn] at htake ⊢
      rw [bytesPolled, htake]
      exact n.succ_ne_zero
    simp only [step, hread, ok_bind, hpolled, wakeWriter_eq, RawRingBufPipe.record,
      List.append_assoc, pure_eq_ok, Except.ok.injEq] at hstep
    subst hstep
    exact ⟨rest, .fetched [.readReady] hsplit hbytes hheld (.inr rfl)⟩

theorem step_write (h : Sound c p q) (hbuf : buf ≠ []) (hstep : step p (.write buf) = .ok p') :
    ∃ q', Moves c p q p' q' := by
  cases hclosed : p.closed with
  | true =>
    simp only [step, (writes_of_closed hclosed).1, ok_bind, bytesWritten, pure_eq_ok,
      Except.ok.injEq] at hstep
    subst hstep
    exact ⟨q, .refused [] hclosed (.inl rfl)⟩
  | false =>
    by_cases hroom : p.ringBuf.readPos + c < 2 ^ 64
    · by_cases hq : q.length = c
      · simp only [step, (writes_of_full h hq hclosed hroom).1, ok_bind, bytesWritten,
          List.take_zero, pure_eq_ok, Except.ok.injEq] at hstep
        subst hstep
        exact ⟨q, .full hq hclosed⟩
      · obtain ⟨bytes, r, hbytes, htake, hheld, hwrite, -⟩ := writes_of_room h hq hclosed hroom hbuf
        simp only [step, hwrite, ok_bind, bytesWritten, htake, wakeReader_eq, RawRingBufPipe.record,
          List.append_assoc, pure_eq_ok, Except.ok.injEq] at hstep
        subst hstep
        exact ⟨_, .offered [] hclosed hbytes hheld (.inl rfl)⟩
    · simp only [step, (writes_panic h hclosed hroom).1, error_bind, reduceCtorEq] at hstep

theorem step_pollWrite (h : Sound c p q) (hbuf : buf ≠ [])
    (hstep : step p (.pollWrite waker buf) = .ok p') : ∃ q', Moves c p q p' q' := by
  cases hclosed : p.closed with
  | true =>
    simp only [step, (writes_of_closed hclosed).2, ok_bind, writePolled, bytesWritten,
      List.take_zero, pure_eq_ok, Except.ok.injEq] at hstep
    subst hstep
    exact ⟨q, .refused _ hclosed (.inr rfl)⟩
  | false =>
    by_cases hroom : p.ringBuf.readPos + c < 2 ^ 64
    · by_cases hq : q.length = c
      · simp only [step, (writes_of_full h hq hclosed hroom).2, ok_bind, writePolled, pure_eq_ok,
          Except.ok.injEq] at hstep
        subst hstep
        exact ⟨q, .writeParked waker hq hclosed⟩
      · obtain ⟨bytes, r, hbytes, htake, hheld, -, hwrite⟩ := writes_of_room h hq hclosed hroom hbuf
        simp only [step, hwrite, ok_bind, writePolled, bytesWritten, htake, wakeReader_eq,
          RawRingBufPipe.record, List.append_assoc, pure_eq_ok, Except.ok.injEq] at hstep
        subst hstep
        exact ⟨_, .offered [.writeReady] hclosed hbytes hheld (.inr rfl)⟩
    · simp only [step, (writes_panic h hclosed hroom).2, error_bind, reduceCtorEq] at hstep

theorem step_moves (h : Sound c p q) {a : Action} (ha : Enabled p a) (hstep : step p a = .ok p') :
    ∃ q', Moves c p q p' q' := by
  cases a with
  | read buf => exact step_read h ha hstep
  | write buf => exact step_write h ha hstep
  | pollRead waker buf => exact step_pollRead h ha hstep
  | pollWrite waker buf => exact step_pollWrite h ha hstep
  | close =>
    simp only [step, close_eq, RawRingBufPipe.record, List.append_assoc, pure_eq_ok,
      Except.ok.injEq] at hstep
    subst hstep
    exact ⟨q, .closed⟩

end Steps

section Invariant

variable {c : ℕ} {p p' : RawRingBufPipe} {q q' : Bytes}

theorem Sound.extend (h : Sound c p q) {hs : List Happening} (hheld : Holds p'.ringBuf c q')
    (hhistory : p'.history = p.history ++ hs)
    (hconserved : q ++ acceptedBytes hs = deliveredBytes hs ++ q')
    (hclosed : p'.closed = true ↔ p.closed = true ∨ .closed ∈ hs)
    (hreader : p'.reader ≠ none → q' = [] ∧ p'.closed = false)
    (hwriter : p'.writer ≠ none → q'.length = c ∧ p'.closed = false) : Sound c p' q' := by
  refine ⟨hheld, ?_, ?_, hreader, hwriter⟩
  · rw [hhistory, acceptedBytes_append, deliveredBytes_append, h.conserved, List.append_assoc,
      hconserved, List.append_assoc]
  · rw [hhistory, List.mem_append, h.closed_iff, hclosed]

theorem acceptedBytes_woken (o : Option Waker) : acceptedBytes (woken o) = [] := by
  cases o <;> rfl

theorem deliveredBytes_woken (o : Option Waker) : deliveredBytes (woken o) = [] := by
  cases o <;> rfl

theorem mem_woken {o : Option Waker} {h : Happening} : h ∈ woken o ↔ ∃ w, o = some w ∧ h = .woke w := by
  cases o with
  | none => simp [woken]
  | some w => simp [woken]

theorem Sound.moves (h : Sound c p q) (hmoves : Moves c p q p' q') : Sound c p' q' := by
  cases hmoves with
  | fetched polled hsplit hbytes hheld hpolled =>
    have hreader : p.reader = none := h.reader_eq_none (by simp [hsplit, hbytes])
    refine h.extend hheld rfl ?_ ?_ ?_ ?_
    · rcases hpolled with rfl | rfl <;>
        simp [acceptedBytes_append, deliveredBytes_append, acceptedBytes_woken, deliveredBytes_woken,
          acceptedBytes, deliveredBytes, hsplit]
    · rcases hpolled with rfl | rfl <;> simp [mem_woken]
    · exact fun hne ↦ absurd hreader hne
    · exact fun hne ↦ absurd rfl hne
  | drained polled hq hclosed hpolled =>
    refine h.extend h.holds rfl ?_ ?_ h.reader h.writer
    · rcases hpolled with rfl | rfl <;> simp [acceptedBytes, deliveredBytes]
    · rcases hpolled with rfl | rfl <;> simp
  | starved hq hclosed =>
    refine h.extend h.holds rfl ?_ ?_ h.reader h.writer
    · simp [acceptedBytes, deliveredBytes]
    · simp
  | readParked waker hq hclosed =>
    refine h.extend h.holds rfl ?_ ?_ (fun _ ↦ ⟨hq, hclosed⟩) h.writer
    · simp [acceptedBytes, deliveredBytes]
    · simp
  | offered polled hclosed hbytes hheld hpolled =>
    refine h.extend hheld rfl ?_ ?_ ?_ ?_
    · rcases hpolled with rfl | rfl <;>
        simp [acceptedBytes_append, deliveredBytes_append, acceptedBytes_woken, deliveredBytes_woken,
          acceptedBytes, deliveredBytes]
    · rcases hpolled with rfl | rfl <;> simp [mem_woken]
    · exact fun hne ↦ absurd rfl hne
    · intro hne
      have hfull := (h.writer hne).1
      have hle := Holds.length_le hheld
      have hpos := List.length_pos_iff.mpr hbytes
      rw [List.length_append] at hle
      omega
  | refused polled hclosed hpolled =>
    refine h.extend h.holds rfl ?_ ?_ h.reader h.writer
    · rcases hpolled with rfl | rfl <;> simp [acceptedBytes, deliveredBytes]
    · rcases hpolled with rfl | rfl <;> simp
  | full hq hclosed =>
    refine h.extend h.holds rfl ?_ ?_ h.reader h.writer
    · simp [acceptedBytes, deliveredBytes]
    · simp
  | writeParked waker hq hclosed =>
    refine h.extend h.holds rfl ?_ ?_ h.reader (fun _ ↦ ⟨hq, hclosed⟩)
    · simp [acceptedBytes, deliveredBytes]
    · simp
  | closed =>
    refine h.extend h.holds rfl ?_ ?_ (fun hne ↦ absurd rfl hne) (fun hne ↦ absurd rfl hne)
    · simp [acceptedBytes_append, deliveredBytes_append, acceptedBytes_woken, deliveredBytes_woken,
        acceptedBytes, deliveredBytes]
    · simp

theorem Sound.step (h : Sound c p q) {a : Action} (ha : Enabled p a) (hstep : step p a = .ok p') :
    ∃ q', Moves c p q p' q' ∧ Sound c p' q' := by
  obtain ⟨q', hmoves⟩ := step_moves h ha hstep
  exact ⟨q', hmoves, h.moves hmoves⟩

theorem sound_of_pipe (hnew : pipe c = .ok p) : Sound c p [] ∧ p.history = [] := by
  obtain ⟨r, hring, hp⟩ := bind_ok hnew
  cases hp
  exact ⟨⟨RingBuf.holds_of_withCapacity hring, rfl, by simp, by simp, by simp⟩, rfl⟩

theorem Sound.run (h : Sound c p q) (hrun : Run Pipe.step Enabled p p') : ∃ q', Sound c p' q' := by
  refine hrun.invariant (P := fun s ↦ ∃ q, Sound c s q) ⟨q, h⟩ ?_
  rintro a b i ⟨q, h⟩ ha hstep
  obtain ⟨q', -, h'⟩ := h.step ha hstep
  exact ⟨q', h'⟩

end Invariant

section Delivery

variable {c : ℕ} {p p' : RawRingBufPipe} {q q' : Bytes}

def Exhausted (p : RawRingBufPipe) : Prop :=
  .closed ∈ p.history ∧ deliveredBytes p.history = acceptedBytes p.history

theorem Sound.exhausted_iff (h : Sound c p q) : Exhausted p ↔ p.closed = true ∧ q = [] := by
  rw [Exhausted, h.closed_iff, h.conserved, List.self_eq_append_right]

theorem Moves.of_closed (hmoves : Moves c p q p' q') (hclosed : p.closed = true) :
    p'.closed = true ∧ acceptedBytes p'.history = acceptedBytes p.history := by
  cases hmoves with
  | fetched polled _ _ _ hpolled =>
    rcases hpolled with rfl | rfl <;>
      simp [hclosed, acceptedBytes_append, acceptedBytes_woken, acceptedBytes]
  | drained polled _ _ hpolled =>
    rcases hpolled with rfl | rfl <;> simp [hclosed, acceptedBytes_append, acceptedBytes]
  | refused polled _ hpolled =>
    rcases hpolled with rfl | rfl <;> simp [hclosed, acceptedBytes_append, acceptedBytes]
  | closed => simp [acceptedBytes_append, acceptedBytes_woken, acceptedBytes]
  | starved _ hopen | readParked _ _ hopen | offered _ hopen | full _ hopen | writeParked _ _ hopen =>
    rw [hclosed] at hopen
    cases hopen

theorem Moves.of_empty (hmoves : Moves c p [] p' q') (hclosed : p.closed = true) : q' = [] := by
  cases hmoves with
  | fetched _ hsplit hbytes => exact absurd (List.nil_eq_append_iff.mp hsplit).1 hbytes
  | offered _ hopen =>
    rw [hclosed] at hopen
    cases hopen
  | drained | starved | readParked | refused | full | writeParked | closed => rfl

theorem accepted_of_closed (h : Sound c p q) (hclosed : p.closed = true)
    (hrun : Run Pipe.step Enabled p p') :
    p'.closed = true ∧ acceptedBytes p'.history = acceptedBytes p.history := by
  have hall : (∃ q', Sound c p' q') ∧ p'.closed = true ∧
      acceptedBytes p'.history = acceptedBytes p.history := by
    refine hrun.invariant (P := fun s ↦ (∃ q', Sound c s q') ∧ s.closed = true ∧
      acceptedBytes s.history = acceptedBytes p.history) ⟨⟨q, h⟩, hclosed, rfl⟩ ?_
    rintro a b i ⟨⟨q, h⟩, hclosed, haccepted⟩ ha hstep
    obtain ⟨q', hmoves, h'⟩ := h.step ha hstep
    obtain ⟨hclosed', haccepted'⟩ := hmoves.of_closed hclosed
    exact ⟨⟨q', h'⟩, hclosed', haccepted'.trans haccepted⟩
  exact hall.2

theorem Exhausted.step (hex : Exhausted p) (h : Sound c p q) (hmoves : Moves c p q p' q') :
    Exhausted p' := by
  obtain ⟨hclosed, rfl⟩ := h.exhausted_iff.mp hex
  exact (h.moves hmoves).exhausted_iff.mpr
    ⟨(hmoves.of_closed hclosed).1, hmoves.of_empty hclosed⟩

theorem Moves.ended (hmoves : Moves c p q p' q') (h : Sound c p q) (hended : .ended ∈ p'.history) :
    .ended ∈ p.history ∨ Exhausted p := by
  cases hmoves with
  | drained _ hq hclosed => exact .inr (h.exhausted_iff.mpr ⟨hclosed, hq⟩)
  | fetched _ _ _ _ hpolled | offered _ _ _ _ hpolled =>
    rcases hpolled with rfl | rfl <;> simpa [mem_woken] using Or.inl hended
  | refused _ _ hpolled => rcases hpolled with rfl | rfl <;> simpa using Or.inl hended
  | starved | readParked | full | writeParked => simpa using Or.inl hended
  | closed => simpa [mem_woken] using Or.inl hended

theorem exhausted_of_ended (hnew : pipe c = .ok p) (hrun : Run Pipe.step Enabled p p')
    (hended : .ended ∈ p'.history) : Exhausted p' := by
  obtain ⟨h, hempty⟩ := sound_of_pipe hnew
  have hall : (∃ q', Sound c p' q') ∧ (.ended ∈ p'.history → Exhausted p') := by
    refine hrun.invariant (P := fun s ↦ (∃ q', Sound c s q') ∧ (.ended ∈ s.history → Exhausted s))
      ⟨⟨[], h⟩, by simp [hempty]⟩ ?_
    rintro a b i ⟨⟨q, h⟩, hex⟩ ha hstep
    obtain ⟨q', hmoves, h'⟩ := h.step ha hstep
    refine ⟨⟨q', h'⟩, fun hended ↦ ?_⟩
    have hbefore : Exhausted a := (hmoves.ended h hended).elim hex id
    exact hbefore.step h hmoves
  exact hall.2 hended

theorem read_reports_iff (h : Sound c p q) {buf : Bytes} (hbuf : buf ≠ []) :
    (∃ rest, p.read buf = .ok (.error brokenPipe, rest)) ↔ Exhausted p := by
  rw [h.exhausted_iff]
  by_cases hq : q = []
  · subst hq
    cases hclosed : p.closed with
    | false => simp [read_of_empty h hclosed]
    | true => simp [read_of_drained h hclosed]
  · obtain ⟨bytes, rest, buf', r, -, -, -, -, hread, -⟩ := reads_of_bytes h hq hbuf
    simp [hread, hq]

theorem pollRead_reports_iff (h : Sound c p q) {buf : Bytes} (hbuf : buf ≠ []) (waker : Waker) :
    (∃ rest, p.pollRead waker buf = .ok (.ready (.ok 0), rest)) ↔ Exhausted p := by
  rw [h.exhausted_iff]
  by_cases hq : q = []
  · subst hq
    cases hclosed : p.closed with
    | false => simp [pollRead_of_empty h hclosed]
    | true => simp [pollRead_of_drained h hclosed]
  · obtain ⟨bytes, rest, buf', r, -, hbytes, -, -, -, hread⟩ := reads_of_bytes h hq hbuf
    simp [hread, hq, hbytes]

/-- What is read is at every moment a prefix of what was written, nothing is
taken in after a close, and a read reports the end of the pipe exactly from the
moment on at which it is closed and everything was read. -/
theorem pipe_delivers (c : ℕ) (p₀ p : RawRingBufPipe) (hnew : pipe c = .ok p₀)
    (hrun : Run Pipe.step Enabled p₀ p) :
    deliveredBytes p.history <+: acceptedBytes p.history ∧
      (.closed ∈ p.history → ∀ p', Run Pipe.step Enabled p p' →
        acceptedBytes p'.history = acceptedBytes p.history) ∧
      (∀ buf, buf ≠ [] → ((∃ rest, p.read buf = .ok (.error brokenPipe, rest)) ↔ Exhausted p) ∧
        ∀ waker, (∃ rest, p.pollRead waker buf = .ok (.ready (.ok 0), rest)) ↔ Exhausted p) ∧
      (.ended ∈ p.history → Exhausted p) ∧
      (Exhausted p → ∀ p', Run Pipe.step Enabled p p' → Exhausted p') := by
  obtain ⟨q, h⟩ := (sound_of_pipe hnew).1.run hrun
  refine ⟨?_, ?_, ?_, exhausted_of_ended hnew hrun, ?_⟩
  · exact ⟨q, h.conserved.symm⟩
  · intro hclosed p' hrun'
    exact (accepted_of_closed h (h.closed_iff.mp hclosed) hrun').2
  · intro buf hbuf
    exact ⟨read_reports_iff h hbuf, pollRead_reports_iff h hbuf⟩
  · intro hex p' hrun'
    have hall : (∃ q', Sound c p' q') ∧ Exhausted p' := by
      refine hrun'.invariant (P := fun s ↦ (∃ q', Sound c s q') ∧ Exhausted s) ⟨⟨q, h⟩, hex⟩ ?_
      rintro a b i ⟨⟨q, h⟩, hex⟩ ha hstep
      obtain ⟨q', hmoves, h'⟩ := h.step ha hstep
      exact ⟨⟨q', h'⟩, hex.step h hmoves⟩
    exact hall.2

theorem pipe_delivers_example :
    ∃ p₀ p, pipe 1 = .ok p₀ ∧ Run Pipe.step Enabled p₀ p ∧ Exhausted p ∧
      ∀ buf, buf ≠ [] → ∃ rest, p.read buf = .ok (.error brokenPipe, rest) := by
  obtain ⟨p, hp⟩ : ∃ p : RawRingBufPipe, p =
      ⟨⟨[7], 1, 1⟩, none, none, true, [.accepted [7], .closed, .delivered [7]]⟩ := ⟨_, rfl⟩
  have hrun : Run Pipe.step Enabled ⟨⟨[0], 0, 0⟩, none, none, false, []⟩ p := by
    rw [hp]
    refine .tail (.tail (.tail (.refl _) (i := .write [7]) ?_ rfl) (i := .close) trivial rfl)
      (i := .read [0]) ?_ rfl
    · exact List.cons_ne_nil _ _
    · exact List.cons_ne_nil _ _
  have hex : Exhausted p := by
    rw [hp]
    exact ⟨by decide, rfl⟩
  refine ⟨_, p, rfl, hrun, hex, ?_⟩
  intro buf hbuf
  exact ((pipe_delivers 1 _ p rfl hrun).2.2.1 buf hbuf).1.mpr hex

end Delivery

end ZeroRtt.Ringbuff.Delivery
