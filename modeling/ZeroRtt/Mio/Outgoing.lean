import ZeroRtt.Mio.Addressing

namespace ZeroRtt.Mio.Outgoing

open ZeroRtt.Lib.Panics ZeroRtt.Lib.Containers ZeroRtt.Lib.Runs
open ZeroRtt.Api.Types ZeroRtt.Api.Handshakes
open ZeroRtt.Poll (Group)
open ZeroRtt.Poll.Accepting (openLibrary firstPacket)
open ZeroRtt.Poll.Conn (UnlockEnv)
open ZeroRtt.Poll.Serving
open ZeroRtt.Mio.Socket ZeroRtt.Mio.Receiving
open ZeroRtt.Mio.SendQueue (Packet)
open ZeroRtt.Mio.Addressing (Attached attached_bind attached_of_run address arriving moved
  multihomed receive_eq run_multihomed serves_arriving socket_ok)

variable {Config : Type}

/-- The packet that a step finds in its buffer once the group has returned, and the socket
that it is for. -/
def produced (lib : Library Config) (fromSlice : Group.FromSlice) (s : State) :
    Addressing.Action Config → Option (ℕ × Packet)
  | .onQuicSend token now env written _ =>
    match Group.send token QuicBuf.capacity now env s.group with
    | .ok (.ok (size, info)) _ =>
      (s.laddrs.lookup info.fromAddr).map fun index ↦ (index, ⟨written, size⟩, info.toAddr)
    | _ => none
  | .receive index d =>
    match d.side, s.sockets[index]? with
    | .server env, some socket =>
      match recvWithAcceptor lib fromSlice (QuicBuf.received d.bytes).buf
          (QuicBuf.received d.bytes).len ⟨d.source, socket.localAddr⟩ (some d.unparker) env
          s.group with
      | .ok (.ok (size, info), out) _ =>
        if size = 0 then none else some (index, ⟨out, size⟩, info.toAddr)
      | _ => none
    | _, _ => none
  | _ => none

/-- A group of mio with the packets that it had to send so far, which are a history variable:
nothing reads them. -/
structure Trace where
  state : State
  made : List (ℕ × Packet)

def step (lib : Library Config) (fromSlice : Group.FromSlice) (t : Trace)
    (a : Addressing.Action Config) : Rust Trace := do
  return ⟨← Addressing.step lib fromSlice t.state a,
    t.made ++ (produced lib fromSlice t.state a).toList⟩

def madeFor (index : ℕ) (made : List (ℕ × Packet)) : List Packet :=
  made.filterMap fun x ↦ if x.1 = index then some x.2 else none

theorem madeFor_append (index : ℕ) (xs ys : List (ℕ × Packet)) :
    madeFor index (xs ++ ys) = madeFor index xs ++ madeFor index ys := List.filterMap_append

/-- A socket is given some packets. They join its line, or they are dropped because its queue
is full. -/
structure Ships (socket : QuicSocket) (packets : List Packet) (socket' : QuicSocket) : Prop where
  addr : socket'.localAddr = socket.localAddr
  line : socket'.taken ++ socket'.sending = socket.taken ++ socket.sending ++ packets ∨
    socket.sending.length = 1024 ∧
      socket'.taken ++ socket'.sending = socket.taken ++ socket.sending

def ShipsAll (s : State) (made : List (ℕ × Packet)) (s' : State) : Prop :=
  s'.sockets.length = s.sockets.length ∧ ∀ index socket, s.sockets[index]? = some socket →
    ∃ socket', s'.sockets[index]? = some socket' ∧ Ships socket (madeFor index made) socket'

section Steps

variable {lib : Library Config} {fromSlice : Group.FromSlice} {s s' : State} {index : ℕ}
variable {socket socket' : QuicSocket} {os : System} {buf : QuicBuf} {target : SocketAddr}
variable {r : Except Io Unit}

theorem ships_refl (socket : QuicSocket) : Ships socket [] socket :=
  ⟨rfl, .inl (List.append_nil _).symm⟩

theorem shipsAll_of_eq (h : s'.sockets = s.sockets) : ShipsAll s [] s' := by
  refine ⟨congrArg List.length h, fun index socket hget ↦ ⟨socket, ?_, ships_refl socket⟩⟩
  rw [h]
  exact hget

theorem enqueues_or_full (os : System) (s : QuicSocket) (buf : QuicBuf) (target : SocketAddr) :
    SendQueue.callEnqueues os s (.sendTo buf target) = [(buf, target)] ∨
      s.sending.length = s.sendingBufferLimits ∧
        SendQueue.callEnqueues os s (.sendTo buf target) = [] := by
  by_cases hfull : s.isFull = true
  · have hlength : s.sending.length = s.sendingBufferLimits := by
      simpa [QuicSocket.isFull] using hfull
    simp only [SendQueue.callEnqueues, hfull, if_true]
    split
    · exact .inr ⟨hlength, rfl⟩
    · unfold SendQueue.pushEnqueues
      split
      · exact .inr ⟨hlength, rfl⟩
      · exact .inl rfl
  · left
    simp only [SendQueue.callEnqueues, SendQueue.pushEnqueues, hfull, Bool.false_eq_true, if_false]

theorem shipsAll_put (hget : s.sockets[index]? = some socket) {made : List (ℕ × Packet)}
    (hships : Ships socket (madeFor index made) socket')
    (hother : ∀ i, i ≠ index → madeFor i made = []) : ShipsAll s made (s.put index socket') := by
  have hlt := (List.getElem?_eq_some_iff.mp hget).1
  refine ⟨List.length_set, fun i socket₁ hget₁ ↦ ?_⟩
  by_cases hi : i = index
  · subst hi
    obtain rfl : socket₁ = socket := Option.some.inj (hget₁.symm.trans hget)
    exact ⟨socket', List.getElem?_set_self hlt, hships⟩
  · refine ⟨socket₁, (List.getElem?_set_ne (Ne.symm hi)).trans hget₁, ?_⟩
    rw [hother i hi]
    exact ships_refl socket₁

theorem shipsAll_transmit (h : Attached s)
    (hrun : transmit index os buf target s = .ok (r, s')) :
    ShipsAll s [(index, buf, target)] s' := by
  obtain ⟨socket, hsocket, hrun⟩ := bind_ok hrun
  have hget := socket_ok hsocket
  obtain ⟨-, hbounded, hlimits⟩ := h.socket_eq hget
  obtain ⟨result, socket', hsend, hcalled⟩ := SendQueue.sendTo_called os hbounded buf target
  have hput : s' = s.put index socket' := by
    rw [hsend, ok_bind] at hrun
    cases result with
    | ok len =>
      cases hrun
      rfl
    | error err => cases err <;> cases hrun <;> rfl
  have hmade : madeFor index [(index, buf, target)] = [(buf, target)] := by simp [madeFor]
  rw [hput]
  refine shipsAll_put hget ⟨hcalled.addr, ?_⟩ fun i hi ↦ by simp [madeFor, Ne.symm hi]
  rw [hmade, hcalled.line]
  rcases enqueues_or_full os socket buf target with henqueues | ⟨hfull, henqueues⟩
  · exact .inl (by rw [henqueues])
  · exact .inr ⟨hfull.trans hlimits, by rw [henqueues, List.append_nil]⟩

theorem shipsAll_onUdpSend (h : onUdpSend index os s = .ok (r, s')) : ShipsAll s [] s' := by
  obtain ⟨socket, hsocket, hrun⟩ := bind_ok h
  have hget := socket_ok hsocket
  obtain ⟨r', socket', htry, htried⟩ := SendQueue.tryFlush_tried os socket
  rw [htry] at hrun
  cases hrun
  exact shipsAll_put hget ⟨htried.addr, .inl (htried.line.trans (List.append_nil _).symm)⟩
    fun _ _ ↦ rfl

theorem shipsAll_onQuicSend (h : Attached s) {token : Token} {now : Instant} {env : UnlockEnv}
    {written : Bytes} (hrun : onQuicSend token now env written os s = .ok (r, s')) :
    ShipsAll s (produced lib fromSlice s (.onQuicSend token now env written os)).toList s' := by
  obtain ⟨⟨sent, t⟩, hsend, hrun⟩ := bind_ok hrun
  obtain ⟨g, hleft, rfl⟩ := run_ok hsend
  rcases sent with err | ⟨size, info⟩
  · cases hrun
    simp only [produced, hleft]
    exact shipsAll_of_eq rfl
  · obtain ⟨-, -, hrun⟩ := bind_ok hrun
    obtain ⟨buf, hbuf, hrun⟩ := bind_ok hrun
    obtain rfl : buf = ⟨written, size⟩ := by
      obtain ⟨-, -, hbuf⟩ := bind_ok hbuf
      cases hbuf
      rfl
    dsimp only at hrun
    split at hrun
    · cases hrun
    next index hlookup =>
      simp only [produced, hleft, hlookup, Option.map_some, Option.toList_some]
      have hships := shipsAll_transmit (h.regroup g) hrun
      exact hships

theorem shipsAll_receive (h : Attached s) {d : Datagram Config}
    (hrun : receive lib fromSlice index d s = .ok (r, s')) :
    ShipsAll s (produced lib fromSlice s (.receive index d)).toList s' := by
  obtain ⟨socket, hsocket, -⟩ := bind_ok hrun
  have hget := socket_ok hsocket
  simp only [receive, hsocket, ok_bind, recvFrom_new] at hrun
  cases hside : d.side with
  | server env =>
    rw [hside] at hrun
    obtain ⟨⟨⟨answer, out⟩, t⟩, hserve, hrun⟩ := bind_ok hrun
    obtain ⟨g, hleft, rfl⟩ := run_ok hserve
    simp only [produced, hside, hget, hleft]
    rcases answer with err | ⟨size, info⟩
    · cases err <;> cases hrun <;> exact shipsAll_of_eq rfl
    · dsimp only at hrun
      split at hrun
      next hzero =>
        cases hrun
        simp only [hzero, if_true]
        exact shipsAll_of_eq rfl
      next hzero =>
        obtain ⟨buf, hbuf, hrun⟩ := bind_ok hrun
        obtain rfl : buf = ⟨out, size⟩ := by
          obtain ⟨-, -, hbuf⟩ := bind_ok hbuf
          cases hbuf
          rfl
        simp only [hzero, if_false, Option.toList_some]
        have hships := shipsAll_transmit (h.regroup g) hrun
        exact hships
  | client env =>
    rw [hside] at hrun
    simp only [produced, hside]
    dsimp only at hrun
    split at hrun
    · cases hrun
      exact shipsAll_of_eq rfl
    · obtain ⟨⟨received, t⟩, hrecv, hrun⟩ := bind_ok hrun
      obtain ⟨g, -, rfl⟩ := run_ok hrecv
      rcases received with err | n
      · cases err <;> cases hrun <;> exact shipsAll_of_eq rfl
      · cases hrun
        exact shipsAll_of_eq rfl

theorem shipsAll_step (h : Attached s) {a : Addressing.Action Config}
    (hstep : Addressing.step lib fromSlice s a = .ok s') :
    ShipsAll s (produced lib fromSlice s a).toList s' := by
  cases a with
  | op op =>
    cases hstep
    exact shipsAll_of_eq rfl
  | onQuicSend token now env written os =>
    obtain ⟨⟨r, t⟩, hrun, hstep⟩ := bind_ok hstep
    cases hstep
    exact shipsAll_onQuicSend h hrun
  | receive index d =>
    obtain ⟨⟨r, t⟩, hrun, hstep⟩ := bind_ok hstep
    cases hstep
    exact shipsAll_receive h hrun
  | onUdpSend index os =>
    obtain ⟨⟨r, t⟩, hrun, hstep⟩ := bind_ok hstep
    cases hstep
    exact shipsAll_onUdpSend hrun

end Steps

section Runs

variable {lib : Library Config} {fromSlice : Group.FromSlice} {laddrs : List SocketAddr}
variable {t t' : Trace} {a : Addressing.Action Config}

/-- The line of each socket holds packets that were made for it, in the order in which they
were made, and no packet twice. -/
structure InOrder (t : Trace) : Prop where
  attached : Attached t.state
  line : ∀ index (socket : QuicSocket), t.state.sockets[index]? = some socket →
    (socket.taken ++ socket.sending).Sublist (madeFor index t.made)

theorem InOrder.step (h : InOrder t) (hstep : Outgoing.step lib fromSlice t a = .ok t') :
    InOrder t' := by
  obtain ⟨s', hstate, hstep⟩ := bind_ok hstep
  cases hstep
  refine ⟨h.attached.step hstate, fun index socket' hget' ↦ ?_⟩
  obtain ⟨hlength, hships⟩ := shipsAll_step h.attached hstate
  have hlt : index < t.state.sockets.length := by
    rw [← hlength]
    exact (List.getElem?_eq_some_iff.mp hget').1
  obtain ⟨socket₁, hget₁, -, hline⟩ := hships index _ (List.getElem?_eq_getElem hlt)
  obtain rfl : socket₁ = socket' := Option.some.inj (hget₁.symm.trans hget')
  have hbefore := h.line index _ (List.getElem?_eq_getElem hlt)
  rw [madeFor_append]
  cases hline with
  | inl hjoins =>
    rw [hjoins]
    exact hbefore.append_right _
  | inr hdropped =>
    rw [hdropped.2]
    exact hbefore.trans (List.sublist_append_left _ _)

theorem inOrder_bind (laddrs : List SocketAddr) : InOrder ⟨.bind laddrs, []⟩ := by
  have hline : ∀ s : State, (∀ socket ∈ s.sockets, socket.taken ++ socket.sending = []) →
      ∀ socket ∈ (laddrs.foldl State.attach s).sockets, socket.taken ++ socket.sending = [] := by
    intro s hs
    induction laddrs generalizing s with
    | nil => exact hs
    | cons laddr laddrs ih =>
      refine ih (s.attach laddr) fun socket hmem ↦ ?_
      cases List.mem_append.mp hmem with
      | inl hmem => exact hs socket hmem
      | inr hmem =>
        obtain rfl := List.mem_singleton.mp hmem
        rfl
  refine ⟨attached_bind laddrs, fun index socket hget ↦ ?_⟩
  rw [hline _ (by simp) socket (List.mem_of_getElem? hget)]
  exact List.nil_sublist _

theorem inOrder_of_run (hrun : Run (step lib fromSlice) Anything ⟨.bind laddrs, []⟩ t) :
    InOrder t := by
  induction hrun with
  | refl => exact inOrder_bind laddrs
  | tail _ _ hstep ih => exact ih.step hstep

end Runs

/-- What a socket has sent and what waits in its queue are packets that the connections made
for it, in the order in which they made them, and none twice. The queue has room for 1024 of
them, and the next packet that is made for the socket joins the line unless the queue is
full. -/
theorem packets_leave_in_order (lib : Library Config) (fromSlice : Group.FromSlice)
    (laddrs : List SocketAddr) (t : Trace)
    (hrun : Run (step lib fromSlice) Anything ⟨.bind laddrs, []⟩ t) (index : ℕ)
    (socket : QuicSocket) (hget : t.state.sockets[index]? = some socket) :
    (socket.taken ++ socket.sending).Sublist (madeFor index t.made) ∧
    socket.sending.length ≤ 1024 ∧
    ∀ a t', step lib fromSlice t a = .ok t' →
      ∃ socket', t'.state.sockets[index]? = some socket' ∧
        Ships socket (madeFor index (produced lib fromSlice t.state a).toList) socket' := by
  have h := inOrder_of_run hrun
  obtain ⟨-, hbounded, hlimits⟩ := h.attached.socket_eq hget
  refine ⟨h.line index socket hget, hlimits ▸ hbounded, fun a t' hstep ↦ ?_⟩
  obtain ⟨s', hstate, hstep⟩ := bind_ok hstep
  cases hstep
  exact (shipsAll_step h.attached hstate).2 index socket hget

theorem packets_leave_in_order_example :
    ∃ t socket, Run (step openLibrary firstPacket) Anything ⟨.bind [address 1, address 2], []⟩ t ∧
      t.state.sockets[0]? = some socket ∧
      socket.taken = [(⟨(QuicBuf.received arriving.bytes).buf, 1200⟩, address 9)] ∧
      (socket.taken ++ socket.sending).Sublist (madeFor 0 t.made) := by
  obtain ⟨g, hserve⟩ := serves_arriving ⟨address 9, address 1⟩
  have hreceive : receive openLibrary firstPacket 0 arriving multihomed = _ :=
    receive_eq (attached_of_run (fun _ _ _ hs ↦ hs.step) run_multihomed) rfl rfl hserve (by decide) (by decide)
  obtain ⟨s, socket, hleaves, hget, htaken⟩ : ∃ s socket,
      receive openLibrary firstPacket 0 arriving multihomed = .ok (.ok (), s) ∧
      s.sockets[0]? = some socket ∧
      socket.taken = [(⟨(QuicBuf.received arriving.bytes).buf, 1200⟩, address 9)] :=
    ⟨_, _, hreceive.trans rfl, rfl, rfl⟩
  have hregistered : Run (step openLibrary firstPacket) Anything
      ⟨.bind [address 1, address 2], []⟩ ⟨multihomed, []⟩ :=
    .one (i := .op (.register moved .still)) trivial rfl
  have hnext : step openLibrary firstPacket ⟨multihomed, []⟩ (.receive 0 arriving) =
      .ok ⟨s, (produced openLibrary firstPacket multihomed (.receive 0 arriving)).toList⟩ := by
    simp only [step, Addressing.step, hleaves, ok_bind, pure_eq_ok, List.nil_append]
  have hrun : Run (step openLibrary firstPacket) Anything ⟨.bind [address 1, address 2], []⟩
      ⟨s, (produced openLibrary firstPacket multihomed (.receive 0 arriving)).toList⟩ :=
    .tail hregistered trivial hnext
  exact ⟨_, socket, hrun, hget, htaken,
    (packets_leave_in_order openLibrary firstPacket _ _ hrun 0 socket hget).1⟩

end ZeroRtt.Mio.Outgoing
