import ZeroRtt.Lib.Panics

namespace ZeroRtt.Api.Types

open ZeroRtt.Lib.Panics

/-- `quiche::Error`; the code only tells `Done` from the rest. -/
inductive QuicheError
  | done
  | other (code : ℤ)
deriving DecidableEq, Repr

inductive Error
  | quiche (err : QuicheError)
  | retry
  | busy
  | notFound
  | validateAddress
  | maxStreams
deriving DecidableEq, Repr

inductive Poll (α : Type)
  | ready (a : α)
  | pending
deriving DecidableEq, Repr

def wouldBlock {α : Type} : Except Error α → Poll (Except Error α)
  | .error .busy => .pending
  | .error .retry => .pending
  | r => .ready r

def Settled {α : Type} (r : Except Error α) : Prop := r ≠ .error .busy ∧ r ≠ .error .retry

theorem settled_ok {α : Type} (a : α) : Settled (.ok a) := ⟨by simp, by simp⟩

theorem settled_quiche {α : Type} (err : QuicheError) :
    Settled (.error (.quiche err) : Except Error α) := ⟨by simp, by simp⟩

theorem Settled.error {α β : Type} {err : Error} (h : Settled (.error err : Except Error α)) :
    Settled (.error err : Except Error β) :=
  ⟨by simpa using h.1, by simpa using h.2⟩

structure Token where
  val : UInt32
deriving DecidableEq, Repr

inductive EventKind
  | send
  | recv
  | connected
  | accept
  | closed
  | streamOpenBidi
  | streamOpenUni
  | streamAccept
  | streamSend
  | streamRecv
  | readLock
deriving DecidableEq, Repr

structure Event where
  token : Token
  kind : EventKind
  isServer : Bool
  isError : Bool
  streamId : ℕ
deriving DecidableEq, Repr

def isLocal (streamId : ℕ) (isServer : Bool) : Bool := (streamId &&& 0x1) == isServer.toNat

def isBidi (streamId : ℕ) : Bool := (streamId &&& 0x2) == 0

inductive StreamKind
  | uni
  | bidi
deriving DecidableEq, Repr

def StreamKind.ofId (streamId : ℕ) : StreamKind := if isBidi streamId then .bidi else .uni

abbrev ConnectionId := Bytes

inductive IpAddr
  | v4 (octets : FixedBytes 4)
  | v6 (octets : FixedBytes 16)
deriving DecidableEq

def IpAddr.localhost : IpAddr := .v4 ⟨[127, 0, 0, 1], rfl⟩

def IpAddr.octets : IpAddr → Bytes
  | .v4 a => a.bytes
  | .v6 a => a.bytes

structure SocketAddr where
  ip : IpAddr
  port : UInt16
deriving DecidableEq

structure RecvInfo where
  fromAddr : SocketAddr
  toAddr : SocketAddr
deriving DecidableEq

structure SendInfo where
  fromAddr : SocketAddr
  toAddr : SocketAddr
  atTime : Instant
deriving DecidableEq

end ZeroRtt.Api.Types
