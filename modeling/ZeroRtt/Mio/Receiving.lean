import ZeroRtt.Mio.Socket
import ZeroRtt.Poll.Serving

namespace ZeroRtt.Mio.Receiving

open ZeroRtt.Lib.Panics ZeroRtt.Lib.Containers ZeroRtt.Lib.Runs
open ZeroRtt.Api.Types ZeroRtt.Api.Quiche ZeroRtt.Api.Handshakes
open ZeroRtt.Poll (Group Section Unparker)
open ZeroRtt.Poll.Conn (UnlockEnv)
open ZeroRtt.Poll.Operations (Op perform)
open ZeroRtt.Poll.Routing (Legal)
open ZeroRtt.Poll.Accepting (openLibrary openLibrary_keepsSourceId firstPacket trustful)
open ZeroRtt.Poll.Serving
open ZeroRtt.Mio.Socket

variable {α Config : Type}

/-- A group of mio, with its sockets behind the mutex of the poll state. -/
structure State where
  group : Group
  laddrs : HashMap SocketAddr ℕ
  sockets : List QuicSocket

namespace State

def attach (s : State) (laddr : SocketAddr) : State :=
  { s with
    laddrs := s.laddrs.insert laddr s.sockets.length
    sockets := s.sockets ++ [.new laddr 1024] }

def bind (laddrs : List SocketAddr) : State := laddrs.foldl attach ⟨.new, ∅, []⟩

def run (s : State) (x : Section α) : Rust (α × State) :=
  match x s.group with
  | .ok a group => .ok (a, { s with group })
  | .error panic _ => .error panic

def socket (s : State) (index : ℕ) : Rust QuicSocket :=
  match s.sockets[index]? with
  | some socket => .ok socket
  | none => .error (.expect "Quic socket")

def put (s : State) (index : ℕ) (socket : QuicSocket) : State :=
  { s with sockets := s.sockets.set index socket }

end State

/-- The acceptor of the poll state, if there is one, with what the code reads from outside
while it handles a datagram. -/
inductive Side (Config : Type)
  | server (env : Env Config)
  | client (env : UnlockEnv)

structure Datagram (Config : Type) where
  bytes : Bytes
  source : SocketAddr
  side : Side Config
  unparker : Unparker
  os : System

def transmit (index : ℕ) (os : System) (buf : QuicBuf) (target : SocketAddr) (s : State) :
    Rust (Except Io Unit × State) := do
  let socket ← s.socket index
  match ← socket.sendTo os buf target with
  | (.error (.io err), socket) => return (.error err, s.put index socket)
  | (.error (.isFull _), socket) => return (.ok (), s.put index socket)
  | (.ok _, socket) => return (.ok (), s.put index socket)

/-- A turn of the loop of `on_udp_recv`. The thread is alone, so that nobody unparks it. -/
def receive (lib : Library Config) (fromSlice : Group.FromSlice) (index : ℕ) (d : Datagram Config)
    (s : State) : Rust (Except Io Unit × State) := do
  let socket ← s.socket index
  let (_, buf) ← QuicSocket.recvFrom (.ok (d.bytes, d.source)) .new
  let info : RecvInfo := ⟨d.source, socket.localAddr⟩
  match d.side with
  | .server env =>
    match ← s.run (recvWithAcceptor lib fromSlice buf.buf buf.len info (some d.unparker) env) with
    | ((.ok (sendSize, sendInfo), out), s) =>
      if sendSize = 0 then
        return (.ok (), s)
      let buf ← { buf with buf := out }.writableConsume sendSize
      transmit index d.os buf sendInfo.toAddr s
    | ((.error .busy, _), _) | ((.error .retry, _), _) => throw .hangs
    | ((.error _, _), s) => return (.ok (), s)
  | .client env =>
    match fromSlice buf.readableBuf with
    | .error err => return (.error ⟨.other, .inr err⟩, s)
    | .ok header =>
      match ← s.run (Group.recvWithConnectionId header.dcid buf.readableBuf info
        (some d.unparker) env) with
      | (.error .busy, _) | (.error .retry, _) => throw .hangs
      | (_, s) => return (.ok (), s)

/-- The socket returns some datagrams, one after the other, and then an error. -/
def onUdpRecv (lib : Library Config) (fromSlice : Group.FromSlice) (index : ℕ)
    (datagrams : List (Datagram Config)) (last : Io) (s : State) :
    Rust (Except Io Unit × State) := do
  let _ ← s.socket index
  match ← tryEach (receive lib fromSlice index) datagrams s with
  | (.error err, s) => return (.error err, s)
  | (.ok _, s) =>
    match ioWouldBlock (.error last : Except Io Unit) with
    | .pending => return (.ok (), s)
    | .ready r => return (r, s)

def onUdpSend (index : ℕ) (os : System) (s : State) : Rust (Except Io Unit × State) := do
  let socket ← s.socket index
  let (r, socket) := socket.tryFlush os
  return (r, s.put index socket)

def onQuicSend (token : Token) (now : Instant) (env : UnlockEnv) (written : Bytes) (os : System)
    (s : State) : Rust (Except Io Unit × State) := do
  match ← s.run (Group.send token QuicBuf.capacity now env) with
  | (.ok (sendSize, sendInfo), s) =>
    assert (sendSize > 0)
    let buf ← { QuicBuf.new with buf := written }.writableConsume sendSize
    match s.laddrs.lookup sendInfo.fromAddr with
    | none => throw (.expect "Quic socket")
    | some index => transmit index os buf sendInfo.toAddr s
  | (.error _, s) => return (.ok (), s)

/-- A readiness event of mio, with what the socket does then. -/
structure IoEvent (Config : Type) where
  index : ℕ
  readable : Option (List (Datagram Config) × Io)
  writable : Option System

def onReadable (lib : Library Config) (fromSlice : Group.FromSlice) (event : IoEvent Config)
    (s : State) : Rust (Except Io Unit × State) :=
  match event.readable with
  | some (datagrams, last) => onUdpRecv lib fromSlice event.index datagrams last s
  | none => return (.ok (), s)

/-- The body of the loop of `mio_poll_once`. The last token is the one of the waker. -/
def onEvent (lib : Library Config) (fromSlice : Group.FromSlice) (event : IoEvent Config)
    (s : State) : Rust (Except Io Unit × State) := do
  if event.index = s.sockets.length then
    return (.ok (), s)
  match ← onReadable lib fromSlice event s with
  | (.error err, s) => return (.error err, s)
  | (.ok _, s) =>
    match event.writable with
    | some os => onUdpSend event.index os s
    | none => return (.ok (), s)

def mioPollOnce (lib : Library Config) (fromSlice : Group.FromSlice)
    (polled : Except Io (List (IoEvent Config))) (s : State) : Rust (Except Io Unit × State) :=
  match polled with
  | .error err => return (.error err, s)
  | .ok events => tryEach (onEvent lib fromSlice) events s

inductive Action (Config : Type)
  | op (op : Op)
  | onQuicSend (token : Token) (now : Instant) (env : UnlockEnv) (written : Bytes) (os : System)
  | mioPollOnce (polled : Except Io (List (IoEvent Config)))

def step (lib : Library Config) (fromSlice : Group.FromSlice) (s : State) : Action Config → Rust State
  | .op op => return { s with group := perform s.group op }
  | .onQuicSend token now env written os => return (← onQuicSend token now env written os s).2
  | .mioPollOnce polled => return (← mioPollOnce lib fromSlice polled s).2

/-- A connection that is registered has a source id of its own and minds the buffer. -/
def Allowed (s : State) : Action Config → Prop
  | .op op => Legal s.group op ∧ ∀ conn env, op = .register conn env → Fits conn
  | _ => True

variable {lib : Library Config} {fromSlice : Group.FromSlice} {s s' t : State} {n index : ℕ}
variable {d : Datagram Config} {last : Io} {datagrams : List (Datagram Config)}

section Healthy

/-- A group with `n` sockets between two operations of a single thread. -/
structure Healthy (n : ℕ) (s : State) : Prop where
  sane : Sane s.group
  bounded : ∀ socket ∈ s.sockets, Bounded socket
  length : s.sockets.length = n

theorem Healthy.regroup (h : Healthy n s) {g : Group} (hg : Sane g) :
    Healthy n { s with group := g } := ⟨hg, h.bounded, h.length⟩

theorem Healthy.socket (h : Healthy n s) (hindex : index < n) :
    ∃ socket, s.sockets[index]? = some socket ∧ s.socket index = .ok socket ∧ Bounded socket := by
  have hlt : index < s.sockets.length := h.length.symm ▸ hindex
  have hget := List.getElem?_eq_getElem hlt
  refine ⟨s.sockets[index], hget, ?_, h.bounded _ (List.getElem_mem hlt)⟩
  simp only [State.socket, hget]

theorem Healthy.index_lt (h : Healthy n s) {socket : QuicSocket}
    (hsocket : s.socket index = .ok socket) : index < n := by
  by_contra hindex
  have hnone : s.sockets[index]? = none :=
    List.getElem?_eq_none (h.length.symm ▸ Nat.not_lt.mp hindex)
  simp only [State.socket, hnone] at hsocket
  cases hsocket

theorem Healthy.put (h : Healthy n s) {socket : QuicSocket} (hs : Bounded socket) :
    Healthy n (s.put index socket) := by
  refine ⟨h.sane, fun socket' hmem ↦ ?_, by simpa [State.put] using h.length⟩
  rcases List.mem_or_eq_of_mem_set hmem with hmem | rfl
  · exact h.bounded socket' hmem
  · exact hs

theorem Healthy.transmit (h : Healthy n s) (hindex : index < n) (os : System) (buf : QuicBuf)
    (target : SocketAddr) :
    ∃ r s', transmit index os buf target s = .ok (r, s') ∧ Healthy n s' ∧
      ∀ err, r = .error err → Refuses os err := by
  obtain ⟨socket, -, hsocket, hbounded⟩ := h.socket hindex
  obtain ⟨r, socket', hsend, hbounded', herror⟩ := sendTo_spec os hbounded buf target
  simp only [Receiving.transmit, hsocket, ok_bind, hsend, pure_eq_ok]
  rcases r with (buf | err) | len
  · exact ⟨_, _, rfl, h.put hbounded', by simp⟩
  · refine ⟨_, _, rfl, h.put hbounded', ?_⟩
    rintro err' ⟨⟩
    exact herror err rfl
  · exact ⟨_, _, rfl, h.put hbounded', by simp⟩

theorem Healthy.transmit_ok (h : Healthy n s) {os : System} {buf : QuicBuf} {target : SocketAddr}
    {r : Except Io Unit} (hrun : Receiving.transmit index os buf target s = .ok (r, s')) :
    Healthy n s' := by
  obtain ⟨socket, hsocket, -⟩ := bind_ok hrun
  obtain ⟨r', t, hrun', ht, -⟩ := h.transmit (h.index_lt hsocket) os buf target
  cases hrun'.symm.trans hrun
  exact ht

end Healthy

section Datagrams

/-- On the client side a datagram that parses, on the server side one that can be served. -/
def Harmless (lib : Library Config) (fromSlice : Group.FromSlice) (index : ℕ) (d : Datagram Config)
    (s : State) : Prop :=
  match d.side with
  | .server env => ∀ socket, s.sockets[index]? = some socket →
    Servable lib fromSlice env.acceptor s.group (QuicBuf.received d.bytes).buf
      (QuicBuf.received d.bytes).len ⟨d.source, socket.localAddr⟩
  | .client _ => ∃ header, fromSlice (d.bytes.take QuicBuf.capacity) = .ok header

theorem run_of_ok {x : Section α} {a : α} {g : Group} (h : x s.group = .ok a g) :
    s.run x = .ok (a, { s with group := g }) := by
  simp only [State.run, h]

theorem run_ok {x : Section α} {a : α} (h : s.run x = .ok (a, s')) :
    ∃ g, x s.group = .ok a g ∧ s' = { s with group := g } := by
  unfold State.run at h
  split at h
  next a g hx =>
    cases h
    exact ⟨g, hx, rfl⟩
  · cases h

theorem Healthy.receive (h : Healthy n s) (hlib : Reliable lib) (hindex : index < n)
    (hd : Harmless lib fromSlice index d s) :
    ∃ r s', receive lib fromSlice index d s = .ok (r, s') ∧ Healthy n s' ∧
      ∀ err, r = .error err → Refuses d.os err := by
  obtain ⟨socket, hget, hsocket, hbounded⟩ := h.socket hindex
  unfold Harmless at hd
  simp only [Receiving.receive, hsocket, ok_bind, recvFrom_new]
  cases hside : d.side with
  | server env =>
    rw [hside] at hd
    obtain ⟨r, out, g, hrun, hsettled, hsize, hsane⟩ :=
      h.sane.settles hlib (received_len_le d.bytes) (hd socket hget) (some d.unparker)
    have hhealthy := h.regroup hsane
    simp only [run_of_ok hrun, ok_bind]
    rcases r with err | ⟨sendSize, sendInfo⟩
    · cases err with
      | busy => exact absurd rfl hsettled.1
      | retry => exact absurd rfl hsettled.2
      | _ => exact ⟨_, _, rfl, hhealthy, by simp⟩
    · dsimp only
      split
      · exact ⟨_, _, rfl, hhealthy, by simp⟩
      · have hle : ¬ sendSize > QuicBuf.capacity := by
          rw [← received_length d.bytes]
          exact Nat.not_lt.mpr (hsize sendSize sendInfo rfl)
        simp only [QuicBuf.writableConsume, assert_of hle, ok_bind, pure_eq_ok]
        exact hhealthy.transmit hindex d.os _ _
  | client env =>
    rw [hside] at hd
    obtain ⟨header, hheader⟩ := hd
    obtain ⟨r, g, hrun, hsettled, hsane⟩ := h.sane.receives header.dcid
      (QuicBuf.received d.bytes).readableBuf ⟨d.source, socket.localAddr⟩ (some d.unparker) env
    simp only [readableBuf_received, hheader] at hrun ⊢
    simp only [run_of_ok hrun, ok_bind]
    rcases r with err | r
    · cases err with
      | busy => exact absurd rfl hsettled.1
      | retry => exact absurd rfl hsettled.2
      | _ => exact ⟨_, _, rfl, h.regroup hsane, by simp⟩
    · exact ⟨_, _, rfl, h.regroup hsane, by simp⟩

theorem Healthy.receive_harmful (h : Healthy n s) (hlib : Reliable lib)
    (hindex : index < n) (hd : ¬ Harmless lib fromSlice index d s) {r : Except Io Unit}
    (hrun : Receiving.receive lib fromSlice index d s = .ok (r, s')) :
    (∃ err, r = .error err) ∧ s' = s := by
  obtain ⟨socket, hget, hsocket, hbounded⟩ := h.socket hindex
  unfold Harmless at hd
  simp only [Receiving.receive, hsocket, ok_bind, recvFrom_new] at hrun
  cases hside : d.side with
  | server env =>
    rw [hside] at hd hrun
    refine absurd (fun socket' hget' ↦ ?_) hd
    obtain rfl : socket = socket' := Option.some.inj (hget.symm.trans hget')
    obtain ⟨⟨⟨r', out⟩, t⟩, hx, hrun⟩ := bind_ok hrun
    obtain ⟨g, hserve, rfl⟩ := run_ok hx
    refine (h.sane.settles_iff hlib (received_len_le d.bytes)).mp ⟨r', out, g, hserve, ?_⟩
    rcases r' with err | r'
    · cases err with
      | busy => cases hrun
      | retry => cases hrun
      | _ => exact ⟨by simp, by simp⟩
    · exact settled_ok _
  | client env =>
    rw [hside] at hd hrun
    dsimp only at hrun
    rw [readableBuf_received] at hrun
    cases hheader : fromSlice (d.bytes.take QuicBuf.capacity) with
    | error err =>
      rw [hheader] at hrun
      cases hrun
      exact ⟨⟨_, rfl⟩, rfl⟩
    | ok header => exact absurd ⟨header, hheader⟩ hd

theorem Healthy.receive_iff (h : Healthy n s) (hlib : Reliable lib) (hindex : index < n)
    (hos : Smooth d.os) :
    (∃ s', Receiving.receive lib fromSlice index d s = .ok (.ok (), s')) ↔
      Harmless lib fromSlice index d s := by
  constructor
  · rintro ⟨s', hrun⟩
    by_contra hd
    obtain ⟨⟨err, herr⟩, -⟩ := h.receive_harmful hlib hindex hd hrun
    cases herr
  · intro hd
    obtain ⟨r, s', hrun, -, herror⟩ := h.receive hlib hindex hd
    cases r with
    | ok _ => exact ⟨s', hrun⟩
    | error err => exact absurd (herror err rfl) (hos.not_refuses err)

theorem Healthy.receive_ok (h : Healthy n s) (hlib : Reliable lib) (hindex : index < n)
    {r : Except Io Unit} (hrun : Receiving.receive lib fromSlice index d s = .ok (r, s')) :
    Healthy n s' := by
  by_cases hd : Harmless lib fromSlice index d s
  · obtain ⟨r', t, hrun', ht, -⟩ := h.receive hlib hindex hd
    cases hrun'.symm.trans hrun
    exact ht
  · obtain ⟨-, rfl⟩ := h.receive_harmful hlib hindex hd hrun
    exact h

end Datagrams

section Loop

/-- Every datagram is harmless in the state that those before it leave. -/
def Calm (lib : Library Config) (fromSlice : Group.FromSlice) (index : ℕ)
    (datagrams : List (Datagram Config)) (last : Io) (s : State) : Prop :=
  ∀ before d after t, datagrams = before ++ d :: after →
    onUdpRecv lib fromSlice index before last s = .ok (.ok (), t) → Harmless lib fromSlice index d t

theorem Healthy.onUdpRecv_eq (h : Healthy n s) (hindex : index < n)
    (hlast : last.kind = .wouldBlock) (datagrams : List (Datagram Config)) :
    onUdpRecv lib fromSlice index datagrams last s =
      tryEach (Receiving.receive lib fromSlice index) datagrams s := by
  obtain ⟨socket, -, hsocket, -⟩ := h.socket hindex
  unfold onUdpRecv
  rw [hsocket, ok_bind]
  cases tryEach (Receiving.receive lib fromSlice index) datagrams s with
  | error panic => rfl
  | ok r =>
    obtain ⟨err | _, t⟩ := r
    · rfl
    · simp [ioWouldBlock, hlast]

theorem Healthy.onUdpRecv_iff (h : Healthy n s) (hlib : Reliable lib) (hindex : index < n)
    (hos : ∀ d ∈ datagrams, Smooth d.os) (hlast : last.kind = .wouldBlock) :
    (∃ s', onUdpRecv lib fromSlice index datagrams last s = .ok (.ok (), s')) ↔
      Calm lib fromSlice index datagrams last s := by
  unfold Calm
  simp only [h.onUdpRecv_eq hindex hlast]
  refine tryEach_ok_iff h (fun d hd t ht ↦ ?_) fun d _ t t' ht hrun ↦ ?_
  · exact ht.receive_iff hlib hindex (hos d hd)
  · exact ht.receive_ok hlib hindex hrun

theorem Healthy.onUdpRecv_ok (h : Healthy n s) (hlib : Reliable lib) {r : Except Io Unit}
    (hrun : onUdpRecv lib fromSlice index datagrams last s = .ok (r, s')) : Healthy n s' := by
  obtain ⟨socket, hsocket, hrun⟩ := bind_ok hrun
  obtain ⟨⟨r', t⟩, hloop, hrun⟩ := bind_ok hrun
  have ht : Healthy n t := tryEach_invariant h
    (fun d _ s r s' hs ↦ hs.receive_ok hlib (h.index_lt hsocket)) hloop
  cases r' with
  | error err =>
    cases hrun
    exact ht
  | ok _ =>
    dsimp only at hrun
    split at hrun <;> cases hrun <;> exact ht

theorem Healthy.onUdpSend (h : Healthy n s) (hindex : index < n) (os : System) :
    ∃ r s', onUdpSend index os s = .ok (r, s') ∧ Healthy n s' ∧
      ∀ err, r = .error err → Refuses os err := by
  obtain ⟨socket, -, hsocket, hbounded⟩ := h.socket hindex
  obtain ⟨r, socket', hflush, hbounded', herror⟩ := tryFlush_spec os hbounded
  simp only [Receiving.onUdpSend, hsocket, ok_bind, hflush, pure_eq_ok]
  exact ⟨_, _, rfl, h.put hbounded', herror⟩

theorem Healthy.onUdpSend_ok (h : Healthy n s) {os : System} {r : Except Io Unit}
    (hrun : Receiving.onUdpSend index os s = .ok (r, s')) : Healthy n s' := by
  obtain ⟨socket, hsocket, -⟩ := bind_ok hrun
  obtain ⟨r', t, hrun', ht, -⟩ := h.onUdpSend (h.index_lt hsocket) os
  cases hrun'.symm.trans hrun
  exact ht

structure Untroubled (n : ℕ) (event : IoEvent Config) : Prop where
  index_le : event.index ≤ n
  reads : ∀ datagrams last, event.readable = some (datagrams, last) →
    (∀ d ∈ datagrams, Smooth d.os) ∧ last.kind = .wouldBlock
  writes : ∀ os, event.writable = some os → Smooth os

def Bears (lib : Library Config) (fromSlice : Group.FromSlice) (n : ℕ) (event : IoEvent Config)
    (s : State) : Prop :=
  event.index ≠ n → ∀ datagrams last, event.readable = some (datagrams, last) →
    Calm lib fromSlice event.index datagrams last s

variable {event : IoEvent Config}

theorem Healthy.onReadable_iff (h : Healthy n s) (hlib : Reliable lib) (hindex : event.index < n)
    (hevent : Untroubled n event) :
    (∃ s', onReadable lib fromSlice event s = .ok (.ok (), s')) ↔
      ∀ datagrams last, event.readable = some (datagrams, last) →
        Calm lib fromSlice event.index datagrams last s := by
  unfold onReadable
  cases hreadable : event.readable with
  | none => simp
  | some reads =>
    obtain ⟨datagrams, last⟩ := reads
    obtain ⟨hos, hlast⟩ := hevent.reads datagrams last hreadable
    dsimp only
    rw [h.onUdpRecv_iff hlib hindex hos hlast]
    simp

theorem Healthy.onReadable_ok (h : Healthy n s) (hlib : Reliable lib) {r : Except Io Unit}
    (hrun : onReadable lib fromSlice event s = .ok (r, s')) : Healthy n s' := by
  unfold onReadable at hrun
  split at hrun
  · exact h.onUdpRecv_ok hlib hrun
  · cases hrun
    exact h

theorem Healthy.onEvent_ok (h : Healthy n s) (hlib : Reliable lib) {r : Except Io Unit}
    (hrun : onEvent lib fromSlice event s = .ok (r, s')) : Healthy n s' := by
  unfold onEvent at hrun
  split at hrun
  · cases hrun
    exact h
  · obtain ⟨⟨r', t⟩, hread, hrun⟩ := bind_ok hrun
    have ht := h.onReadable_ok hlib hread
    cases r' with
    | error err =>
      cases hrun
      exact ht
    | ok _ =>
      dsimp only at hrun
      split at hrun
      · exact ht.onUdpSend_ok hrun
      · cases hrun
        exact ht

theorem Healthy.onEvent_iff (h : Healthy n s) (hlib : Reliable lib)
    (hevent : Untroubled n event) :
    (∃ s', onEvent lib fromSlice event s = .ok (.ok (), s')) ↔
      Bears lib fromSlice n event s := by
  unfold onEvent Bears
  rw [h.length]
  by_cases hwaker : event.index = n
  · simp [hwaker]
  · have hindex : event.index < n := Nat.lt_of_le_of_ne hevent.index_le hwaker
    simp only [hwaker, if_false, ne_eq, not_false_eq_true, forall_const]
    rw [← h.onReadable_iff hlib hindex hevent]
    constructor
    · rintro ⟨s', hrun⟩
      obtain ⟨⟨r, t⟩, hread, hrun⟩ := bind_ok hrun
      cases r with
      | error err => cases hrun
      | ok _ => exact ⟨t, hread⟩
    · rintro ⟨t, hread⟩
      rw [hread, ok_bind]
      cases hwritable : event.writable with
      | none => exact ⟨t, rfl⟩
      | some os =>
        obtain ⟨r, s', hrun, -, herror⟩ :=
          (h.onReadable_ok hlib hread).onUdpSend hindex os
        cases r with
        | ok _ => exact ⟨s', hrun⟩
        | error err =>
          exact absurd (herror err rfl) ((hevent.writes os hwritable).not_refuses err)

theorem Healthy.mioPollOnce_iff (h : Healthy n s) (hlib : Reliable lib)
    {events : List (IoEvent Config)} (hevents : ∀ event ∈ events, Untroubled n event) :
    (∃ s', mioPollOnce lib fromSlice (.ok events) s = .ok (.ok (), s')) ↔
      ∀ before event after t, events = before ++ event :: after →
        mioPollOnce lib fromSlice (.ok before) s = .ok (.ok (), t) →
          Bears lib fromSlice n event t := by
  refine tryEach_ok_iff h (fun event hevent t ht ↦ ?_) fun event _ t t' ht hrun ↦ ?_
  · exact ht.onEvent_iff hlib (hevents event hevent)
  · exact ht.onEvent_ok hlib hrun

theorem Healthy.mioPollOnce_ok (h : Healthy n s) (hlib : Reliable lib)
    {polled : Except Io (List (IoEvent Config))} {r : Except Io Unit}
    (hrun : mioPollOnce lib fromSlice polled s = .ok (r, s')) : Healthy n s' := by
  cases polled with
  | error err =>
    cases hrun
    exact h
  | ok events => exact tryEach_invariant h (fun event _ s r s' hs ↦ hs.onEvent_ok hlib) hrun

end Loop

section Passing

variable {os : System} {r : Except Io Unit} {S : Group → Prop}

/-- What the handlers of `poll` do to the state: a section of the group, which ends in a
group as `S` says, and a packet for a socket if there is one. -/
inductive Passes (os : System) (s : State) (S : Group → Prop) (r : Except Io Unit) (s' : State) : Prop
  | keeps (g : Group) (hg : S g) (h : s' = { s with group := g })
  | transmits (g : Group) (hg : S g) (index : ℕ) (buf : QuicBuf) (target : SocketAddr)
      (h : transmit index os buf target { s with group := g } = .ok (r, s'))

theorem onQuicSend_passes {token : Token} {now : Instant} {env : UnlockEnv} {written : Bytes}
    (h : onQuicSend token now env written os s = .ok (r, s')) :
    Passes os s (fun g ↦ ∃ sent, Group.send token QuicBuf.capacity now env s.group = .ok sent g)
      r s' := by
  obtain ⟨⟨sent, t⟩, hsend, h⟩ := bind_ok h
  obtain ⟨g, hleft, rfl⟩ := run_ok hsend
  rcases sent with err | ⟨sendSize, sendInfo⟩
  · cases h
    exact .keeps g ⟨_, hleft⟩ rfl
  · obtain ⟨-, -, h⟩ := bind_ok h
    obtain ⟨buf, -, h⟩ := bind_ok h
    split at h
    · cases h
    · exact .transmits g ⟨_, hleft⟩ _ _ _ h

def Served (lib : Library Config) (fromSlice : Group.FromSlice) (g g' : Group) : Prop :=
  g' = g ∨
  (∃ buf recvSize info unparker env answer,
    recvWithAcceptor lib fromSlice buf recvSize info unparker env g = .ok answer g') ∨
  ∃ scid buf info unparker env received,
    Group.recvWithConnectionId scid buf info unparker env g = .ok received g'

theorem receive_passes (h : receive lib fromSlice index d s = .ok (r, s')) :
    Passes d.os s (Served lib fromSlice s.group) r s' := by
  obtain ⟨socket, hsocket, -⟩ := bind_ok h
  simp only [receive, hsocket, ok_bind, recvFrom_new] at h
  cases hside : d.side with
  | server env =>
    rw [hside] at h
    obtain ⟨⟨⟨answer, out⟩, t⟩, hserve, h⟩ := bind_ok h
    obtain ⟨g, hleft, rfl⟩ := run_ok hserve
    have hg : Served lib fromSlice s.group g := .inr (.inl ⟨_, _, _, _, _, _, hleft⟩)
    rcases answer with err | ⟨sendSize, sendInfo⟩
    · cases err <;> cases h <;> exact .keeps g hg rfl
    · dsimp only at h
      split at h
      · cases h
        exact .keeps g hg rfl
      · obtain ⟨buf, -, h⟩ := bind_ok h
        exact .transmits g hg _ _ _ h
  | client env =>
    rw [hside] at h
    dsimp only at h
    split at h
    · cases h
      exact .keeps s.group (.inl rfl) rfl
    · obtain ⟨⟨received, t⟩, hrecv, h⟩ := bind_ok h
      obtain ⟨g, hleft, rfl⟩ := run_ok hrecv
      have hg : Served lib fromSlice s.group g := .inr (.inr ⟨_, _, _, _, _, _, hleft⟩)
      rcases received with err | n
      · cases err <;> cases h <;> exact .keeps g hg rfl
      · cases h
        exact .keeps g hg rfl

end Passing

section Runs

theorem Healthy.onQuicSend_ok (h : Healthy n s) {token : Token} {now : Instant} {env : UnlockEnv}
    {written : Bytes} {os : System} {r : Except Io Unit}
    (hrun : onQuicSend token now env written os s = .ok (r, s')) : Healthy n s' := by
  have hsane : ∀ {sent g}, Group.send token QuicBuf.capacity now env s.group = .ok sent g →
      Sane g := by
    intro sent g hleft
    obtain ⟨sent', g', hsends, -, hsane⟩ := h.sane.sends token QuicBuf.capacity now env
    cases hsends.symm.trans hleft
    exact hsane
  cases onQuicSend_passes hrun with
  | keeps g hg hs =>
    obtain ⟨sent, hleft⟩ := hg
    subst hs
    exact h.regroup (hsane hleft)
  | transmits g hg index buf target htransmit =>
    obtain ⟨sent, hleft⟩ := hg
    exact (h.regroup (hsane hleft)).transmit_ok htransmit

theorem Healthy.attach (h : Healthy n s) (laddr : SocketAddr) :
    Healthy (n + 1) (s.attach laddr) := by
  refine ⟨h.sane, fun socket hmem ↦ ?_, ?_⟩
  · rcases List.mem_append.mp hmem with hmem | hmem
    · exact h.bounded socket hmem
    · obtain rfl := List.mem_singleton.mp hmem
      exact Nat.zero_le _
  · simp [State.attach, h.length]

theorem Healthy.attaches (h : Healthy n s) (laddrs : List SocketAddr) :
    Healthy (n + laddrs.length) (laddrs.foldl State.attach s) := by
  induction laddrs generalizing n s with
  | nil => exact h
  | cons laddr laddrs ih =>
    have hattached := ih (h.attach laddr)
    rwa [Nat.add_right_comm, Nat.add_assoc] at hattached

theorem healthy_bind (laddrs : List SocketAddr) : Healthy laddrs.length (.bind laddrs) := by
  have hinit : Healthy 0 ⟨.new, ∅, []⟩ := ⟨sane_new, by simp, rfl⟩
  have hbound := hinit.attaches laddrs
  rwa [Nat.zero_add] at hbound

theorem healthy_of_run (hlib : Reliable lib) {laddrs : List SocketAddr}
    (h : Run (step lib fromSlice) Allowed (.bind laddrs) s) : Healthy s.sockets.length s := by
  have hs : Healthy laddrs.length s := by
    apply h.invariant (P := Healthy laddrs.length) (healthy_bind laddrs)
    intro s s' a hs ha hstep
    cases a with
    | op op =>
      cases hstep
      exact hs.regroup (hs.sane.perform ha.1 ha.2)
    | onQuicSend token now env written os =>
      obtain ⟨⟨r, t⟩, hrun, hstep⟩ := bind_ok hstep
      cases hstep
      exact hs.onQuicSend_ok hrun
    | mioPollOnce polled =>
      obtain ⟨⟨r, t⟩, hrun, hstep⟩ := bind_ok hstep
      cases hstep
      exact hs.mioPollOnce_ok hlib hrun
  rwa [hs.length.symm] at hs

/-- In every state that the thread can reach, it gets through the datagrams of a socket, and
through a poll of all sockets, iff each datagram is harmless in the state in which it is
met. -/
theorem datagrams_harmless_iff (hlib : Reliable lib) {laddrs : List SocketAddr}
    (h : Run (step lib fromSlice) Allowed (.bind laddrs) s) :
    (∀ index datagrams last, index < s.sockets.length → (∀ d ∈ datagrams, Smooth d.os) →
      last.kind = .wouldBlock →
      ((∃ s', onUdpRecv lib fromSlice index datagrams last s = .ok (.ok (), s')) ↔
        Calm lib fromSlice index datagrams last s)) ∧
    ∀ events, (∀ event ∈ events, Untroubled s.sockets.length event) →
      ((∃ s', mioPollOnce lib fromSlice (.ok events) s = .ok (.ok (), s')) ↔
        ∀ before event after t, events = before ++ event :: after →
          mioPollOnce lib fromSlice (.ok before) s = .ok (.ok (), t) →
            Bears lib fromSlice s.sockets.length event t) := by
  have hs := healthy_of_run hlib h
  refine ⟨?_, ?_⟩
  · intro index datagrams last hindex hos hlast
    exact hs.onUdpRecv_iff hlib hindex hos hlast
  · intro events hevents
    exact hs.mioPollOnce_iff hlib hevents

end Runs

section Examples

def bound : State := .bind [exampleRecvInfo.toAddr]

def blocked : Io := ⟨.wouldBlock, .inl ""⟩

def serving : Env Unit where
  acceptor := trustful.acceptor
  received := trustful.unlock
  registered := trustful.unlock
  first := trustful.unlock
  sent := trustful.unlock
  now := 0
  written := id

def sentTo (side : Side Unit) (bytes : Bytes) : Datagram Unit where
  bytes := bytes
  source := exampleRecvInfo.fromAddr
  side := side
  unparker := ⟨0⟩
  os := fun _ ↦ .ok ()

theorem reliable_openLibrary : Reliable openLibrary where
  negotiate h := by cases h
  retry h := by cases h
  keepsSourceId := openLibrary_keepsSourceId
  accept h := by
    cases h
    exact ⟨fun _ _ ↦ rfl, fun _ _ _ _ hsend ↦ by cases hsend⟩

theorem datagrams_harmless_example :
    ∃ s', onUdpRecv openLibrary firstPacket 0 [sentTo (.server serving) [0]] blocked bound =
      .ok (.ok (), s') := by
  have hbound : Run (step openLibrary firstPacket) Allowed (.bind [exampleRecvInfo.toAddr]) bound :=
    .refl _
  refine ((datagrams_harmless_iff reliable_openLibrary hbound).1 0 _ blocked (by decide) ?_ rfl).mpr ?_
  · intro d hd n err herr
    obtain rfl := List.mem_singleton.mp hd
    cases herr
  · intro before d after t heq hrun
    cases before with
    | cons d' before => simp at heq
    | nil =>
      cases heq
      cases hrun
      intro socket hsocket header hheader hid
      cases hheader
      refine ⟨.inr (.inr ⟨0, [], some [], rfl, rfl⟩), fun _ _ _ ↦ ⟨⟨0⟩, rfl⟩⟩

def starving : Group.FromSlice := fun _ ↦ .error (.other (-2))

def strayPacket : Group.FromSlice := fun _ ↦
  .ok ⟨.handshake, 1, [7], [], none, by decide, by decide⟩

/-- A datagram that does not parse ends the loop of a client, and the poll with it, and one
without a token ends the loop of a server. -/
theorem datagram_stops :
    onUdpRecv openLibrary starving 0 [sentTo (.client trustful.unlock) []] blocked bound =
      .ok (.error ⟨.other, .inr (.other (-2))⟩, bound) ∧
    mioPollOnce openLibrary starving
        (.ok [⟨0, some ([sentTo (.client trustful.unlock) []], blocked), none⟩]) bound =
      .ok (.error ⟨.other, .inr (.other (-2))⟩, bound) ∧
    ¬ ∃ s', onUdpRecv openLibrary strayPacket 0 [sentTo (.server serving) [0]] blocked bound =
      .ok (.ok (), s') := by
  have hbound : Healthy 1 bound := healthy_bind [exampleRecvInfo.toAddr]
  obtain ⟨socket, hget, hsocket, -⟩ := hbound.socket Nat.zero_lt_one
  have hreceive : receive openLibrary starving 0 (sentTo (.client trustful.unlock) []) bound =
      .ok (.error ⟨.other, .inr (.other (-2))⟩, bound) := by
    simp only [receive, hsocket, ok_bind, recvFrom_new]
    rfl
  have hloop : onUdpRecv openLibrary starving 0 [sentTo (.client trustful.unlock) []] blocked bound =
      .ok (.error ⟨.other, .inr (.other (-2))⟩, bound) := by
    rw [hbound.onUdpRecv_eq Nat.zero_lt_one rfl, tryEach, hreceive]
    rfl
  refine ⟨hloop, ?_, ?_⟩
  · have hevent : onEvent openLibrary starving
        ⟨0, some ([sentTo (.client trustful.unlock) []], blocked), none⟩ bound =
          .ok (.error ⟨.other, .inr (.other (-2))⟩, bound) := by
      have hread : onReadable openLibrary starving
          ⟨0, some ([sentTo (.client trustful.unlock) []], blocked), none⟩ bound =
            .ok (.error ⟨.other, .inr (.other (-2))⟩, bound) := hloop
      unfold onEvent
      rw [hbound.length, if_neg Nat.zero_ne_one, hread]
      rfl
    rw [mioPollOnce, tryEach, hevent]
    rfl
  · intro hrun
    have hsmooth : ∀ d ∈ [sentTo (.server serving) [0]], Smooth d.os := by
      intro d hd n err herr
      obtain rfl := List.mem_singleton.mp hd
      cases herr
    have hcalm := (hbound.onUdpRecv_iff reliable_openLibrary Nat.zero_lt_one hsmooth rfl).mp hrun
    have hserved := hcalm [] _ [] bound rfl rfl socket hget _ rfl fun _ _ hc ↦ by cases hc
    rcases hserved.answerable with hversion | ⟨htoken, -⟩ | ⟨b, token, r, htoken, -⟩
    · cases hversion
    · cases htoken
    · cases htoken

end Examples

end ZeroRtt.Mio.Receiving
