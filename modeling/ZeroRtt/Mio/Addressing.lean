import ZeroRtt.Mio.Receiving
import ZeroRtt.Mio.SendQueue

namespace ZeroRtt.Mio.Addressing

open ZeroRtt.Lib.Panics ZeroRtt.Lib.Containers ZeroRtt.Lib.Runs
open ZeroRtt.Api.Types ZeroRtt.Api.Quiche ZeroRtt.Api.Handshakes
open ZeroRtt.Poll (Group Section)
open ZeroRtt.Poll.Conn (UnlockEnv)
open ZeroRtt.Poll (Unparker)
open ZeroRtt.Poll.Operations (Op)
open ZeroRtt.Poll.Accepting (openLibrary firstPacket)
open ZeroRtt.Poll.Serving
open ZeroRtt.Mio.Socket ZeroRtt.Mio.Receiving

variable {Config : Type}

/-- The steps of a group of mio that the loops of `mio_poll_once` and `on_udp_recv` are
made of. -/
inductive Action (Config : Type)
  | op (op : Op)
  | onQuicSend (token : Token) (now : Instant) (env : UnlockEnv) (written : Bytes) (os : System)
  | receive (index : ℕ) (d : Datagram Config)
  | onUdpSend (index : ℕ) (os : System)

def step (lib : Library Config) (fromSlice : Group.FromSlice) (s : State) : Action Config → Rust State
  | .op op => return { s with group := Poll.Operations.perform s.group op }
  | .onQuicSend token now env written os => return (← onQuicSend token now env written os s).2
  | .receive index d => return (← receive lib fromSlice index d s).2
  | .onUdpSend index os => return (← onUdpSend index os s).2

/-- The packet is given to a socket whose local address is the one that quiche chose, for
the peer that quiche chose. -/
def Handed (os : System) (buf : QuicBuf) (info : SendInfo) (s : State)
    (result : Rust (Except Io Unit × State)) : Prop :=
  ∃ index socket, s.sockets[index]? = some socket ∧ socket.localAddr = info.fromAddr ∧
    result = transmit index os buf info.toAddr s

/-- The table leads to the sockets, each socket is in the table, and the queues keep to
the limit of `bind`. -/
structure Attached (s : State) : Prop where
  sound : ∀ socket ∈ s.sockets, Bounded socket ∧ socket.sendingBufferLimits = 1024
  listed : ∀ addr index, s.laddrs.lookup addr = some index →
    ∃ socket, s.sockets[index]? = some socket ∧ socket.localAddr = addr
  found : ∀ socket ∈ s.sockets, ∃ index, s.laddrs.lookup socket.localAddr = some index

section Attaching

variable {s : State} {index : ℕ} {socket socket' : QuicSocket}

theorem Attached.attach (h : Attached s) (laddr : SocketAddr) : Attached (s.attach laddr) := by
  refine ⟨?_, ?_, ?_⟩
  · intro socket hmem
    cases List.mem_append.mp hmem with
    | inl hmem => exact h.sound socket hmem
    | inr hmem =>
      obtain rfl := List.mem_singleton.mp hmem
      exact ⟨Nat.zero_le _, rfl⟩
  · intro addr index hlookup
    by_cases haddr : addr = laddr
    · subst haddr
      obtain rfl : s.sockets.length = index := Option.some.inj ((AList.lookup_insert _).symm.trans hlookup)
      exact ⟨_, List.getElem?_concat_length, rfl⟩
    · obtain ⟨socket, hget, hsocket⟩ :=
        h.listed addr index ((AList.lookup_insert_ne haddr).symm.trans hlookup)
      refine ⟨socket, ?_, hsocket⟩
      have hlt := (List.getElem?_eq_some_iff.mp hget).1
      rw [State.attach, List.getElem?_append_left hlt]
      exact hget
  · intro socket hmem
    by_cases haddr : socket.localAddr = laddr
    · refine ⟨s.sockets.length, ?_⟩
      rw [State.attach, haddr]
      exact AList.lookup_insert _
    · cases List.mem_append.mp hmem with
      | inl hmem =>
        obtain ⟨index, hindex⟩ := h.found socket hmem
        exact ⟨index, (AList.lookup_insert_ne haddr).trans hindex⟩
      | inr hmem =>
        obtain rfl := List.mem_singleton.mp hmem
        exact absurd rfl haddr

theorem attached_bind (laddrs : List SocketAddr) : Attached (.bind laddrs) := by
  have hinit : Attached ⟨.new, ∅, []⟩ := ⟨by simp, by simp, by simp⟩
  have hfold : ∀ s, Attached s → Attached (laddrs.foldl State.attach s) := by
    intro s hs
    induction laddrs generalizing s with
    | nil => exact hs
    | cons laddr laddrs ih => exact ih _ (hs.attach laddr)
  exact hfold _ hinit

theorem Attached.regroup (h : Attached s) (g : Group) : Attached { s with group := g } :=
  ⟨h.sound, h.listed, h.found⟩

theorem Attached.socket_eq (h : Attached s) (hget : s.sockets[index]? = some socket) :
    s.socket index = .ok socket ∧ Bounded socket ∧ socket.sendingBufferLimits = 1024 := by
  have hmem : socket ∈ s.sockets := List.mem_of_getElem? hget
  refine ⟨?_, h.sound socket hmem⟩
  simp only [State.socket, hget]

theorem socket_ok (h : s.socket index = .ok socket) : s.sockets[index]? = some socket := by
  unfold State.socket at h
  split at h
  next socket' hget =>
    cases h
    exact hget
  · cases h

theorem Attached.put (h : Attached s) (hget : s.sockets[index]? = some socket)
    (hbounded : Bounded socket') (hlimits : socket'.sendingBufferLimits = socket.sendingBufferLimits)
    (haddr : socket'.localAddr = socket.localAddr) : Attached (s.put index socket') := by
  have hmem : socket ∈ s.sockets := List.mem_of_getElem? hget
  have hlt := (List.getElem?_eq_some_iff.mp hget).1
  refine ⟨?_, ?_, ?_⟩
  · intro socket₁ hmem₁
    cases List.mem_or_eq_of_mem_set hmem₁ with
    | inl hmem₁ => exact h.sound socket₁ hmem₁
    | inr heq =>
      rw [heq]
      exact ⟨hbounded, hlimits.trans (h.sound socket hmem).2⟩
  · intro addr index' hlookup
    obtain ⟨socket₁, hget₁, haddr₁⟩ := h.listed addr index' hlookup
    by_cases hindex : index' = index
    · subst hindex
      obtain rfl : socket₁ = socket := Option.some.inj (hget₁.symm.trans hget)
      refine ⟨socket', ?_, haddr.trans haddr₁⟩
      simp only [State.put, List.getElem?_set_self hlt]
    · refine ⟨socket₁, ?_, haddr₁⟩
      simpa only [State.put, List.getElem?_set_ne (Ne.symm hindex)] using hget₁
  · intro socket₁ hmem₁
    cases List.mem_or_eq_of_mem_set hmem₁ with
    | inl hmem₁ => exact h.found socket₁ hmem₁
    | inr heq =>
      rw [heq, haddr]
      exact h.found socket hmem

end Attaching

section Sending

variable {lib : Library Config} {fromSlice : Group.FromSlice} {s s' : State} {index : ℕ}
variable {socket : QuicSocket} {os : System} {buf : QuicBuf} {target : SocketAddr}

theorem Attached.transmit_eq (h : Attached s) (hget : s.sockets[index]? = some socket) (os : System)
    (buf : QuicBuf) (target : SocketAddr) :
    ∃ r socket', transmit index os buf target s = .ok (r, s.put index socket') ∧
      Attached (s.put index socket') ∧ socket.attempts < socket'.attempts := by
  obtain ⟨hsocket, hbounded, hlimits⟩ := h.socket_eq hget
  obtain ⟨result, socket', hsend, hcalled⟩ := SendQueue.sendTo_called os hbounded buf target
  have hattached := h.put hget hcalled.bounded hcalled.limits hcalled.addr
  have hattempts : socket.attempts < socket'.attempts := by
    have hoffers : 0 < (SendQueue.callOffers os socket (.sendTo buf target)).length :=
      List.length_pos_iff.mpr (SendQueue.sendTo_offers (by omega) buf target)
    rw [hcalled.attempts]
    omega
  simp only [transmit, hsocket, ok_bind, hsend, pure_eq_ok]
  cases result with
  | ok len => exact ⟨_, socket', rfl, hattached, hattempts⟩
  | error err => cases err <;> exact ⟨_, socket', rfl, hattached, hattempts⟩

theorem Attached.transmit_ne (h : Attached s) {index' : ℕ} {socket' : QuicSocket}
    (hget : s.sockets[index]? = some socket) (hget' : s.sockets[index']? = some socket')
    (hne : index ≠ index') :
    transmit index os buf target s ≠ transmit index' os buf target s := by
  obtain ⟨r, socket₁, hrun, -, hattempts⟩ := h.transmit_eq hget os buf target
  obtain ⟨r', socket₂, hrun', -, -⟩ := h.transmit_eq hget' os buf target
  rw [hrun, hrun']
  intro heq
  have hlt := (List.getElem?_eq_some_iff.mp hget).1
  have hsockets : s.sockets.set index socket₁ = s.sockets.set index' socket₂ :=
    congrArg (fun x ↦ State.sockets (Prod.snd x)) (Except.ok.inj heq)
  have hat := congrArg (·[index]?) hsockets
  simp only [List.getElem?_set_self hlt, List.getElem?_set_ne (Ne.symm hne), hget,
    Option.some.injEq] at hat
  rw [hat] at hattempts
  exact Nat.lt_irrefl _ hattempts

theorem Attached.transmit_ok (h : Attached s) {r : Except Io Unit}
    (hrun : transmit index os buf target s = .ok (r, s')) : Attached s' := by
  obtain ⟨socket, hsocket, -⟩ := bind_ok hrun
  have hget : s.sockets[index]? = some socket := by
    unfold State.socket at hsocket
    split at hsocket
    next socket' hget =>
      cases hsocket
      exact hget
    · cases hsocket
  obtain ⟨r', socket', hrun', hattached, -⟩ := h.transmit_eq hget os buf target
  cases hrun'.symm.trans hrun
  exact hattached

theorem Attached.onUdpSend_ok (h : Attached s) {r : Except Io Unit}
    (hrun : onUdpSend index os s = .ok (r, s')) : Attached s' := by
  obtain ⟨socket, hsocket, hrun⟩ := bind_ok hrun
  have hget : s.sockets[index]? = some socket := by
    unfold State.socket at hsocket
    split at hsocket
    next socket' hget =>
      cases hsocket
      exact hget
    · cases hsocket
  obtain ⟨-, hbounded, -⟩ := h.socket_eq hget
  obtain ⟨r', socket', htry, htried⟩ := SendQueue.tryFlush_tried os socket
  rw [htry] at hrun
  cases hrun
  refine h.put hget ?_ htried.limits htried.addr
  unfold Bounded
  rw [htried.limits]
  exact Nat.le_trans htried.length_le hbounded

theorem onQuicSend_eq {token : Token} {now : Instant} {env : UnlockEnv} {written : Bytes} {size : ℕ}
    {info : SendInfo} {g : Group}
    (hsend : Group.send token QuicBuf.capacity now env s.group = .ok (.ok (size, info)) g)
    (hpos : 0 < size) (hle : size ≤ QuicBuf.capacity) :
    onQuicSend token now env written os s =
      match s.laddrs.lookup info.fromAddr with
      | none => .error (.expect "Quic socket")
      | some index => transmit index os ⟨written, size⟩ info.toAddr { s with group := g } := by
  have hsize : size > 0 := hpos
  simp only [onQuicSend, run_of_ok hsend, ok_bind, assert_of hsize, QuicBuf.writableConsume,
    assert_of (Nat.not_lt.mpr hle), pure_eq_ok]
  rfl

theorem receive_eq (h : Attached s) {d : Datagram Config} {env : Env Config} {size : ℕ}
    {info : SendInfo} {out : Bytes} {g : Group} (hget : s.sockets[index]? = some socket)
    (hside : d.side = .server env)
    (hserve : recvWithAcceptor lib fromSlice (QuicBuf.received d.bytes).buf
      (QuicBuf.received d.bytes).len ⟨d.source, socket.localAddr⟩ (some d.unparker) env s.group =
        .ok (.ok (size, info), out) g)
    (hpos : 0 < size) (hle : size ≤ QuicBuf.capacity) :
    receive lib fromSlice index d s =
      transmit index d.os ⟨out, size⟩ info.toAddr { s with group := g } := by
  obtain ⟨hsocket, -, -⟩ := h.socket_eq hget
  simp only [receive, hsocket, ok_bind, recvFrom_new, hside, run_of_ok hserve, hpos.ne', if_false,
    QuicBuf.writableConsume, assert_of (Nat.not_lt.mpr hle), pure_eq_ok]

theorem Attached.passes (h : Attached s) {S : Group → Prop} {r : Except Io Unit}
    (hpasses : Passes os s S r s') : Attached s' := by
  cases hpasses with
  | keeps g _ hs =>
    subst hs
    exact h.regroup g
  | transmits g _ index buf target htransmit => exact (h.regroup g).transmit_ok htransmit

theorem Attached.step (h : Attached s) {a : Action Config}
    (hstep : Addressing.step lib fromSlice s a = .ok s') : Attached s' := by
  cases a with
  | op op =>
    cases hstep
    exact h.regroup _
  | onQuicSend token now env written os =>
    obtain ⟨⟨r, t⟩, hrun, hstep⟩ := bind_ok hstep
    cases hstep
    exact h.passes (onQuicSend_passes hrun)
  | receive index d =>
    obtain ⟨⟨r, t⟩, hrun, hstep⟩ := bind_ok hstep
    cases hstep
    exact h.passes (receive_passes hrun)
  | onUdpSend index os =>
    obtain ⟨⟨r, t⟩, hrun, hstep⟩ := bind_ok hstep
    cases hstep
    exact h.onUdpSend_ok hrun

theorem attached_of_run {α : Type} {laddrs : List SocketAddr} {step : State → α → Rust State}
    (hstep : ∀ s s' a, Attached s → step s a = .ok s' → Attached s')
    (hrun : Run step Anything (.bind laddrs) s) : Attached s :=
  hrun.invariant (attached_bind laddrs) fun s s' a hs _ ↦ hstep s s' a hs

theorem Attached.handed_onQuicSend_iff (h : Attached s) {token : Token} {now : Instant}
    {env : UnlockEnv} {written : Bytes} {size : ℕ} {info : SendInfo} {g : Group}
    (hsend : Group.send token QuicBuf.capacity now env s.group = .ok (.ok (size, info)) g)
    (hpos : 0 < size) (hle : size ≤ QuicBuf.capacity) :
    Handed os ⟨written, size⟩ info { s with group := g } (onQuicSend token now env written os s) ↔
      ∃ socket ∈ s.sockets, socket.localAddr = info.fromAddr := by
  constructor
  · intro hhanded
    obtain ⟨index, socket, hget, haddr, -⟩ := hhanded
    exact ⟨socket, List.mem_of_getElem? hget, haddr⟩
  · intro hbound
    obtain ⟨socket, hmem, haddr⟩ := hbound
    obtain ⟨index, hlookup⟩ := h.found socket hmem
    rw [haddr] at hlookup
    obtain ⟨socket', hget, haddr'⟩ := h.listed info.fromAddr index hlookup
    refine ⟨index, socket', hget, haddr', ?_⟩
    rw [onQuicSend_eq hsend hpos hle, hlookup]

theorem Attached.handed_receive_iff (h : Attached s) {d : Datagram Config} {env : Env Config}
    {size : ℕ} {info : SendInfo} {out : Bytes} {g : Group}
    (hget : s.sockets[index]? = some socket) (hside : d.side = .server env)
    (hserve : recvWithAcceptor lib fromSlice (QuicBuf.received d.bytes).buf
      (QuicBuf.received d.bytes).len ⟨d.source, socket.localAddr⟩ (some d.unparker) env s.group =
        .ok (.ok (size, info), out) g)
    (hpos : 0 < size) (hle : size ≤ QuicBuf.capacity) :
    Handed d.os ⟨out, size⟩ info { s with group := g } (receive lib fromSlice index d s) ↔
      socket.localAddr = info.fromAddr := by
  rw [receive_eq h hget hside hserve hpos hle]
  constructor
  · intro hhanded
    obtain ⟨index', socket', hget', haddr, heq⟩ := hhanded
    by_cases hindex : index = index'
    · subst hindex
      obtain rfl : socket = socket' := Option.some.inj (hget.symm.trans hget')
      exact haddr
    · exact absurd heq ((h.regroup g).transmit_ne hget hget' hindex)
  · exact fun haddr ↦ ⟨index, socket, hget, haddr, rfl⟩

end Sending

/-- The packet that `on_quic_send` has for a connection goes to the socket of the address
that quiche chose, if it is one of the group; the packet that `on_udp_recv` has goes to
the socket that the datagram came from, which is the right one iff quiche chose its
address. -/
theorem handed_to_chosen_iff (lib : Library Config) (fromSlice : Group.FromSlice)
    (laddrs : List SocketAddr) (s : State)
    (hrun : Run (step lib fromSlice) Anything (.bind laddrs) s) :
    (∀ token now env written os size info g,
      Group.send token QuicBuf.capacity now env s.group = .ok (.ok (size, info)) g →
      0 < size → size ≤ QuicBuf.capacity →
      (Handed os ⟨written, size⟩ info { s with group := g }
          (onQuicSend token now env written os s) ↔
        ∃ socket ∈ s.sockets, socket.localAddr = info.fromAddr)) ∧
    ∀ index socket d env size info out g, s.sockets[index]? = some socket →
      d.side = .server env →
      recvWithAcceptor lib fromSlice (QuicBuf.received d.bytes).buf (QuicBuf.received d.bytes).len
        ⟨d.source, socket.localAddr⟩ (some d.unparker) env s.group =
          .ok (.ok (size, info), out) g →
      0 < size → size ≤ QuicBuf.capacity →
      (Handed d.os ⟨out, size⟩ info { s with group := g } (receive lib fromSlice index d s) ↔
        socket.localAddr = info.fromAddr) := by
  have h := attached_of_run (fun _ _ _ hs ↦ hs.step) hrun
  refine ⟨?_, ?_⟩
  · intro token now env written os size info g hsend hpos hle
    exact h.handed_onQuicSend_iff hsend hpos hle
  · intro index socket d env size info out g hget hside hserve hpos hle
    exact h.handed_receive_iff hget hside hserve hpos hle

section Examples

def address (port : UInt16) : SocketAddr := ⟨.localhost, port⟩

def moved : Connection :=
  let idle := Script.connection ⟨true, [7], [], [], none⟩
  { idle with
    answer := fun h c ↦
      match c with
      | .send len =>
        if .send len ∈ h then .error .done else .ok (1200, ⟨address 2, address 9, 0⟩)
      | c => idle.answer h c }

def multihomed : State := { State.bind [address 1, address 2] with
  group := Poll.Operations.perform (State.bind [address 1, address 2]).group (.register moved .still) }

theorem run_multihomed :
    Run (step openLibrary firstPacket) Anything (.bind [address 1, address 2]) multihomed :=
  .one (i := .op (.register moved .still)) trivial rfl

theorem serves_moved {buf packet : Bytes} {n : ℕ} (hpacket : slice buf 0 n = .ok packet)
    (info : RecvInfo) (unparker : Option Unparker) :
    ∃ g, recvWithAcceptor openLibrary firstPacket buf n info unparker serving multihomed.group =
      .ok (.ok (1200, ⟨address 2, address 9, 0⟩), buf) g := by
  unfold recvWithAcceptor
  rw [hpacket]
  exact ⟨_, rfl⟩

def arriving : Datagram Unit := ⟨[0], address 9, .server serving, ⟨0⟩, fun _ ↦ .ok ()⟩

theorem serves_arriving (info : RecvInfo) :
    ∃ g, recvWithAcceptor openLibrary firstPacket (QuicBuf.received arriving.bytes).buf
      (QuicBuf.received arriving.bytes).len info (some arriving.unparker) serving
        multihomed.group =
      .ok (.ok (1200, ⟨address 2, address 9, 0⟩), (QuicBuf.received arriving.bytes).buf) g :=
  serves_moved (slice_of_le (Nat.zero_le _) (received_len_le arriving.bytes)) info _

theorem handed_to_chosen_iff_example :
    ∃ g, Handed arriving.os ⟨(QuicBuf.received arriving.bytes).buf, 1200⟩
      ⟨address 2, address 9, 0⟩ { multihomed with group := g }
      (receive openLibrary firstPacket 1 arriving multihomed) := by
  obtain ⟨g, hserve⟩ := serves_arriving ⟨address 9, address 2⟩
  obtain ⟨-, hreceive⟩ := handed_to_chosen_iff openLibrary firstPacket _ multihomed run_multihomed
  refine ⟨g, ?_⟩
  exact (hreceive 1 (.new (address 2) 1024) arriving serving 1200 _ _ g rfl rfl hserve (by decide)
    (by decide)).mpr rfl

/-- The datagram comes to the other address, and the packet leaves from there. -/
theorem packet_leaves_from_arrival :
    ∃ g r s' socket, recvWithAcceptor openLibrary firstPacket (QuicBuf.received arriving.bytes).buf
        (QuicBuf.received arriving.bytes).len ⟨address 9, address 1⟩ (some arriving.unparker) serving
        multihomed.group =
          .ok (.ok (1200, ⟨address 2, address 9, 0⟩), (QuicBuf.received arriving.bytes).buf) g ∧
      Run (step openLibrary firstPacket) Anything (.bind [address 1, address 2]) multihomed ∧
      ¬ Handed arriving.os ⟨(QuicBuf.received arriving.bytes).buf, 1200⟩
        ⟨address 2, address 9, 0⟩ { multihomed with group := g }
        (receive openLibrary firstPacket 0 arriving multihomed) ∧
      receive openLibrary firstPacket 0 arriving multihomed = .ok (r, s') ∧
      s'.sockets[0]? = some socket ∧ socket.localAddr = address 1 ∧
      socket.taken = [(⟨(QuicBuf.received arriving.bytes).buf, 1200⟩, address 9)] := by
  obtain ⟨g, hserve⟩ := serves_arriving ⟨address 9, address 1⟩
  have h := attached_of_run (fun _ _ _ hs ↦ hs.step) run_multihomed
  have hget : multihomed.sockets[0]? = some (.new (address 1) 1024) := rfl
  have hreceive : receive openLibrary firstPacket 0 arriving multihomed = _ :=
    receive_eq h hget rfl hserve (by decide) (by decide)
  refine ⟨g, .ok (), _, _, hserve, run_multihomed, ?_, hreceive.trans rfl, rfl, rfl, rfl⟩
  rw [h.handed_receive_iff hget rfl hserve (by decide) (by decide)]
  decide

end Examples

end ZeroRtt.Mio.Addressing
