import ZeroRtt.Api.Types
import ZeroRtt.Lib.Runs
import ZeroRtt.Ringbuff.RingBuf

namespace ZeroRtt.Ringbuff.Pipe

open ZeroRtt.Lib.Panics ZeroRtt.Lib.Rings ZeroRtt.Lib.Runs
open ZeroRtt.Api.Types (Poll)

inductive Happening
  | woke (waker : Waker)
  | accepted (bytes : Bytes)
  | delivered (bytes : Bytes)
  | ended
  | closed
  | readPending (waker : Waker)
  | readReady
  | writePending (waker : Waker)
  | writeReady
deriving DecidableEq

/-- The fields behind the spin lock. The history is a history variable: nothing
reads it. -/
structure RawRingBufPipe where
  ringBuf : RingBuf
  reader : Option Waker
  writer : Option Waker
  closed : Bool
  history : List Happening

def brokenPipe : IoError Empty := ⟨.brokenPipe, .inl "pipe is closed"⟩

namespace RawRingBufPipe

def record (p : RawRingBufPipe) (hs : List Happening) : RawRingBufPipe :=
  { p with history := p.history ++ hs }

def wakeReader (p : RawRingBufPipe) : RawRingBufPipe :=
  match p.reader with
  | some waker => { p with reader := none }.record [.woke waker]
  | none => p

def wakeWriter (p : RawRingBufPipe) : RawRingBufPipe :=
  match p.writer with
  | some waker => { p with writer := none }.record [.woke waker]
  | none => p

def close (p : RawRingBufPipe) : RawRingBufPipe :=
  { p with closed := true }.wakeWriter.wakeReader

def read (p : RawRingBufPipe) (buf : Bytes) :
    Rust (Except (IoError Empty) ℕ × Bytes × RawRingBufPipe) := do
  let (result, buf, ringBuf) ← p.ringBuf.read buf
  match result with
  | .error err => return (.error err, buf, { p with ringBuf })
  | .ok readSize =>
    let p := { p with ringBuf }.wakeWriter
    if readSize = 0 then
      if p.closed then return (.error brokenPipe, buf, p)
      return (.ok 0, buf, p)
    return (.ok readSize, buf, p)

def write (p : RawRingBufPipe) (buf : Bytes) :
    Rust (Except (IoError Empty) ℕ × RawRingBufPipe) := do
  if p.closed then return (.error brokenPipe, p)
  let (result, ringBuf) ← p.ringBuf.write buf
  match result with
  | .error err => return (.error err, { p with ringBuf })
  | .ok writeSize =>
    let p := { p with ringBuf }.wakeReader
    if writeSize = 0 then return (.ok 0, p)
    return (.ok writeSize, p)

def pollRead (p : RawRingBufPipe) (waker : Waker) (buf : Bytes) :
    Rust (Poll (Except (IoError Empty) ℕ) × Bytes × RawRingBufPipe) := do
  let (result, buf, ringBuf) ← p.ringBuf.read buf
  match result with
  | .error err => return (.ready (.error err), buf, { p with ringBuf })
  | .ok readSize =>
    let p := { p with ringBuf }.wakeWriter
    if readSize = 0 then
      if p.closed then return (.ready (.ok 0), buf, p)
      return (.pending, buf, { p with reader := some waker })
    return (.ready (.ok readSize), buf, p)

def pollWrite (p : RawRingBufPipe) (waker : Waker) (buf : Bytes) :
    Rust (Poll (Except (IoError Empty) ℕ) × RawRingBufPipe) := do
  if p.closed then return (.ready (.ok 0), p)
  let (result, ringBuf) ← p.ringBuf.write buf
  match result with
  | .error err => return (.ready (.error err), { p with ringBuf })
  | .ok writeSize =>
    let p := { p with ringBuf }.wakeReader
    if writeSize = 0 then return (.pending, { p with writer := some waker })
    return (.ready (.ok writeSize), p)

end RawRingBufPipe

def pipe (buffered : ℕ) : Rust RawRingBufPipe := do
  return ⟨← RingBuf.withCapacity buffered, none, none, false, []⟩

/-- The calls of the two ends; `poll_close` and the drop of either end close. -/
inductive Action
  | read (buf : Bytes)
  | write (buf : Bytes)
  | pollRead (waker : Waker) (buf : Bytes)
  | pollWrite (waker : Waker) (buf : Bytes)
  | close

def bytesRead (buf : Bytes) : Except (IoError Empty) ℕ → List Happening
  | .ok n => [.delivered (buf.take n)]
  | .error _ => [.ended]

def bytesPolled (waker : Waker) (buf : Bytes) : Poll (Except (IoError Empty) ℕ) → List Happening
  | .pending => [.readPending waker]
  | .ready (.ok 0) => [.readReady, .ended]
  | .ready (.ok n) => [.readReady, .delivered (buf.take n)]
  | .ready (.error _) => [.readReady, .ended]

def bytesWritten (buf : Bytes) : Except (IoError Empty) ℕ → List Happening
  | .ok n => [.accepted (buf.take n)]
  | .error _ => []

def writePolled (waker : Waker) (buf : Bytes) : Poll (Except (IoError Empty) ℕ) → List Happening
  | .pending => [.writePending waker]
  | .ready result => .writeReady :: bytesWritten buf result

def step (p : RawRingBufPipe) : Action → Rust RawRingBufPipe
  | .read buf => do
    let (result, buf, p) ← p.read buf
    return p.record (bytesRead buf result)
  | .write buf => do
    let (result, p) ← p.write buf
    return p.record (bytesWritten buf result)
  | .pollRead waker buf => do
    let (result, buf, p) ← p.pollRead waker buf
    return p.record (bytesPolled waker buf result)
  | .pollWrite waker buf => do
    let (result, p) ← p.pollWrite waker buf
    return p.record (writePolled waker buf result)
  | .close => return p.close.record [.closed]

/-- Only buffers with room for a byte are used. -/
def Enabled (_ : RawRingBufPipe) : Action → Prop
  | .read buf | .write buf | .pollRead _ buf | .pollWrite _ buf => buf ≠ []
  | .close => True

end ZeroRtt.Ringbuff.Pipe
