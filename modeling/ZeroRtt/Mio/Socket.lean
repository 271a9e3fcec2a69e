import ZeroRtt.Api.Types

namespace ZeroRtt.Mio.Socket

open ZeroRtt.Lib.Panics ZeroRtt.Api.Types

/-- `std::io::Error`, from the system or around an error of quiche. -/
abbrev Io := IoError QuicheError

def ioWouldBlock {α : Type} : Except Io α → Poll (Except Io α)
  | .error err => if err.kind = .wouldBlock then .pending else .ready (.error err)
  | r => .ready r

/-- `ArrayBuf<1600>`. -/
structure QuicBuf where
  buf : Bytes
  len : ℕ

namespace QuicBuf

def capacity : ℕ := 1600

def new : QuicBuf := ⟨List.replicate capacity 0, 0⟩

def writableConsume (b : QuicBuf) (len : ℕ) : Rust QuicBuf := do
  assert (¬ len > capacity)
  return { b with len }

def readableBuf (b : QuicBuf) : Bytes := b.buf.take b.len

/-- The system writes a datagram into the buffer, and drops what does not fit. -/
def fill (b : QuicBuf) (datagram : Bytes) : QuicBuf :=
  let packet := datagram.take b.buf.length
  { b with buf := packet ++ b.buf.drop packet.length }

def received (datagram : Bytes) : QuicBuf :=
  ⟨(new.fill datagram).buf, (datagram.take capacity).length⟩

end QuicBuf

inductive QuicSocketError
  | isFull (buf : QuicBuf)
  | io (err : Io)

def QuicSocketError.toIo : QuicSocketError → Io
  | .isFull _ => ⟨.other, .inl "Send queue is full."⟩
  | .io err => err

/-- The packets that the system has taken, and the number of the attempts so far, are
history variables. -/
structure QuicSocket where
  sendingBufferLimits : ℕ
  sending : List (QuicBuf × SocketAddr)
  localAddr : SocketAddr
  taken : List (QuicBuf × SocketAddr)
  attempts : ℕ

/-- How the system answers each attempt to send a packet. -/
abbrev System := ℕ → Except Io Unit

namespace QuicSocket

def new (localAddr : SocketAddr) (sendingBufferLimits : ℕ) : QuicSocket :=
  ⟨sendingBufferLimits, [], localAddr, [], 0⟩

def isFull (s : QuicSocket) : Bool := s.sending.length = s.sendingBufferLimits

def flushLoop (os : System) : List (QuicBuf × SocketAddr) → QuicSocket →
    Except QuicSocketError Unit × QuicSocket
  | [], s => (.ok (), { s with sending := [] })
  | packet :: rest, s =>
    match os s.attempts with
    | .ok _ => flushLoop os rest
        { s with taken := s.taken ++ [packet], attempts := s.attempts + 1 }
    | .error err =>
      (.error (.io err), { s with sending := packet :: rest, attempts := s.attempts + 1 })

def flush (os : System) (s : QuicSocket) : Except QuicSocketError Unit × QuicSocket :=
  flushLoop os s.sending s

/-- `flush` of a caller that goes on if the socket would block. -/
def tryFlush (os : System) (s : QuicSocket) : Except Io Unit × QuicSocket :=
  let (r, s) := s.flush os
  match ioWouldBlock (r.mapError QuicSocketError.toIo) with
  | .ready (.error err) => (.error err, s)
  | _ => (.ok (), s)

def push (os : System) (s : QuicSocket) (buf : QuicBuf) (target : SocketAddr) :
    Rust (Except QuicSocketError ℕ × QuicSocket) := do
  if s.isFull then
    return (.error (.isFull buf), s)
  let s := { s with sending := s.sending ++ [(buf, target)] }
  assert (¬ s.sending.length > s.sendingBufferLimits)
  match s.tryFlush os with
  | (.error err, s) => return (.error (.io err), s)
  | (.ok _, s) => return (.ok s.sending.length, s)

def sendTo (os : System) (s : QuicSocket) (buf : QuicBuf) (target : SocketAddr) :
    Rust (Except QuicSocketError ℕ × QuicSocket) :=
  if s.isFull then
    match s.tryFlush os with
    | (.error err, s) => return (.error (.io err), s)
    | (.ok _, s) => s.push os buf target
  else s.push os buf target

def recvFrom (read : Except Io (Bytes × SocketAddr)) (b : QuicBuf) :
    Rust (Except QuicSocketError SocketAddr × QuicBuf) :=
  match read with
  | .error err => return (.error (.io err), b)
  | .ok (datagram, source) => do
    let b ← (b.fill datagram).writableConsume (datagram.take b.buf.length).length
    return (.ok source, b)

end QuicSocket

section Receiving

theorem received_length (datagram : Bytes) : (QuicBuf.received datagram).buf.length = QuicBuf.capacity := by
  have hnew : QuicBuf.new.buf.length = QuicBuf.capacity := List.length_replicate
  simp only [QuicBuf.received, QuicBuf.fill, List.length_append, List.length_drop, List.length_take,
    hnew]
  omega

theorem received_len_le (datagram : Bytes) :
    (QuicBuf.received datagram).len ≤ (QuicBuf.received datagram).buf.length := by
  rw [received_length]
  exact List.length_take_le _ _

theorem readableBuf_received (datagram : Bytes) :
    (QuicBuf.received datagram).readableBuf = datagram.take QuicBuf.capacity := by
  have hnew : QuicBuf.new.buf.length = QuicBuf.capacity := List.length_replicate
  unfold QuicBuf.readableBuf QuicBuf.received QuicBuf.fill
  dsimp only
  rw [hnew]
  exact List.take_left' rfl

theorem recvFrom_new (datagram : Bytes) (source : SocketAddr) :
    QuicSocket.recvFrom (.ok (datagram, source)) .new =
      .ok (.ok source, .received datagram) := by
  have hnew : QuicBuf.new.buf.length = QuicBuf.capacity := List.length_replicate
  have hle : ¬ (datagram.take QuicBuf.capacity).length > QuicBuf.capacity :=
    Nat.not_lt.mpr (List.length_take_le _ _)
  simp only [QuicSocket.recvFrom, QuicBuf.writableConsume, hnew, assert_of hle, ok_bind, pure_eq_ok]
  rfl

end Receiving

section Sending

variable {os : System} {s : QuicSocket}

def Smooth (os : System) : Prop := ∀ n err, os n = .error err → err.kind = .wouldBlock

def Bounded (s : QuicSocket) : Prop := s.sending.length ≤ s.sendingBufferLimits

theorem flushLoop_spec (os : System) (packets : List (QuicBuf × SocketAddr)) (s : QuicSocket) :
    (QuicSocket.flushLoop os packets s).2.sendingBufferLimits = s.sendingBufferLimits ∧
      (QuicSocket.flushLoop os packets s).2.sending.length ≤ packets.length ∧
      ∀ err, (QuicSocket.flushLoop os packets s).1 = .error err →
        ∃ n io, err = .io io ∧ os n = .error io := by
  induction packets generalizing s with
  | nil => exact ⟨rfl, Nat.le_refl _, fun err herr ↦ by cases herr⟩
  | cons packet rest ih =>
    unfold QuicSocket.flushLoop
    cases hos : os s.attempts with
    | ok _ =>
      obtain ⟨hlimits, hlength, herror⟩ :=
        ih { s with taken := s.taken ++ [packet], attempts := s.attempts + 1 }
      exact ⟨hlimits, Nat.le_succ_of_le hlength, herror⟩
    | error io =>
      refine ⟨rfl, Nat.le_refl _, ?_⟩
      rintro err ⟨⟩
      exact ⟨_, io, rfl, hos⟩

def Refuses (os : System) (err : Io) : Prop := ∃ n, os n = .error err ∧ err.kind ≠ .wouldBlock

theorem Smooth.not_refuses (h : Smooth os) (err : Io) : ¬ Refuses os err := by
  rintro ⟨n, hn, hkind⟩
  exact hkind (h n err hn)

theorem tryFlush_spec (os : System) (hs : Bounded s) :
    ∃ r s', s.tryFlush os = (r, s') ∧ Bounded s' ∧ ∀ err, r = .error err → Refuses os err := by
  obtain ⟨hlimits, hlength, herror⟩ := flushLoop_spec os s.sending s
  unfold QuicSocket.tryFlush QuicSocket.flush
  rcases hrun : QuicSocket.flushLoop os s.sending s with ⟨r, s'⟩
  rw [hrun] at hlimits hlength herror
  have hbounded : Bounded s' := by
    unfold Bounded
    rw [hlimits]
    exact Nat.le_trans hlength hs
  cases r with
  | ok _ => exact ⟨_, s', rfl, hbounded, by simp⟩
  | error err =>
    obtain ⟨n, io, rfl, hio⟩ := herror err rfl
    by_cases hkind : io.kind = .wouldBlock
    · exact ⟨.ok (), s', by simp [ioWouldBlock, Except.mapError, QuicSocketError.toIo, hkind],
        hbounded, by simp⟩
    · refine ⟨.error io, s', ?_, hbounded, ?_⟩
      · simp [ioWouldBlock, Except.mapError, QuicSocketError.toIo, hkind]
      · rintro err ⟨⟩
        exact ⟨n, hio, hkind⟩

theorem push_spec (os : System) (hs : Bounded s) (buf : QuicBuf) (target : SocketAddr) :
    ∃ r s', s.push os buf target = .ok (r, s') ∧ Bounded s' ∧
      ∀ err, r = .error (.io err) → Refuses os err := by
  unfold QuicSocket.push
  by_cases hfull : s.isFull = true
  · simp only [hfull, if_true, pure_eq_ok]
    exact ⟨_, s, rfl, hs, by simp⟩
  · have hlt : s.sending.length < s.sendingBufferLimits := by
      apply Nat.lt_of_le_of_ne hs
      simpa [QuicSocket.isFull] using hfull
    have hle : (s.sending ++ [(buf, target)]).length ≤ s.sendingBufferLimits := by
      rw [List.length_append]
      exact hlt
    obtain ⟨r, s', hflush, hbounded, herror⟩ := tryFlush_spec os
      (s := { s with sending := s.sending ++ [(buf, target)] }) hle
    simp only [hfull, Bool.false_eq_true, if_false, assert_of (Nat.not_lt.mpr hle), ok_bind, hflush,
      pure_eq_ok]
    cases r with
    | error err =>
      refine ⟨_, s', rfl, hbounded, ?_⟩
      rintro err ⟨⟩
      exact herror err rfl
    | ok _ => exact ⟨_, s', rfl, hbounded, by simp⟩

theorem sendTo_spec (os : System) (hs : Bounded s) (buf : QuicBuf) (target : SocketAddr) :
    ∃ r s', s.sendTo os buf target = .ok (r, s') ∧ Bounded s' ∧
      ∀ err, r = .error (.io err) → Refuses os err := by
  unfold QuicSocket.sendTo
  split
  · obtain ⟨r, s', hflush, hbounded, herror⟩ := tryFlush_spec os hs
    rw [hflush]
    cases r with
    | error err =>
      refine ⟨_, s', rfl, hbounded, ?_⟩
      rintro err ⟨⟩
      exact herror err rfl
    | ok _ => exact push_spec os hbounded buf target
  · exact push_spec os hs buf target

end Sending

end ZeroRtt.Mio.Socket
